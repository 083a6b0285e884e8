import StyleSieve.Purge

/-!
# The selectors that a purge decides about

`Node.exposedAll` lists the selectors of all rules that no comment protects, in document order.
It does not ask which selectors are kept: the protection of a rule depends on the comments and
rules in front of it alone.

* `selectors_purgeAll`: the removed selectors are the exposed ones that are not kept.
* `nodes_purgeAll_of_keeps`: if every exposed selector is kept, a purge changes nothing.
* `keeps_of_mem_exposedAll_purgeAll`: what a purge leaves exposed is kept.
* `purgeAll_purgeAll`: so a second purge changes nothing.
-/

namespace StyleSieve.Node

mutual

/-- The selectors of a node that a purge decides about if the node is not protected. -/
def exposed : Node → List String
  | .verbatim _ => []
  | .style rule => rule.selectors
  | .statement .. => []
  | .group _ _ children => exposedAll {} children

/-- The selectors of siblings that a purge decides about, the first sibling standing under the
given protection. -/
def exposedAll (p : Protection) : List Node → List String
  | [] => []
  | .verbatim text :: rest => exposedAll (p.afterVerbatim text) rest
  | node :: rest =>
    if p.covers then exposedAll p.afterRule rest else node.exposed ++ exposedAll p rest

end

variable {keeps : String → Bool} {p : Protection} {node : Node} {nodes rest : List Node}

/-! ## Steps along siblings -/

theorem exposedAll_rule (h : node.isRule = true) :
    exposedAll p (node :: rest) =
      if p.covers then exposedAll p.afterRule rest else node.exposed ++ exposedAll p rest := by
  cases node with
  | verbatim text => cases h
  | _ =>
    rw [exposedAll]
    intro text hText
    cases hText

theorem purgeAll_rule (h : node.isRule = true) :
    purgeAll keeps p (node :: rest) =
      if p.covers then (Purged.keeping node).append (purgeAll keeps p.afterRule rest)
      else (node.purge keeps).append (purgeAll keeps p rest) := by
  cases node with
  | verbatim text => cases h
  | _ =>
    rw [purgeAll]
    intro text hText
    cases hText

/-- The cases of an induction along a purge, for a statement `one` about nodes and a statement
`all` about siblings under a protection. -/
structure PurgeCases (one : Node → Prop) (all : Protection → List Node → Prop) : Prop where
  verbatim : ∀ text, one (.verbatim text)
  style : ∀ rule, one (.style rule)
  statement : ∀ keyword prelude block, one (.statement keyword prelude block)
  group : ∀ keyword prelude children, all {} children → one (.group keyword prelude children)
  nil : ∀ p, all p []
  between : ∀ p text rest, all (p.afterVerbatim text) rest → all p (.verbatim text :: rest)
  covered : ∀ p node rest, node.isRule = true → p.covers = true → all p.afterRule rest →
    all p (node :: rest)
  decided : ∀ p node rest, node.isRule = true → p.covers = false → one node → all p rest →
    all p (node :: rest)

namespace PurgeCases

variable {one : Node → Prop} {all : Protection → List Node → Prop}

mutual

theorem holds (h : PurgeCases one all) (node : Node) : one node :=
  match node with
  | .verbatim text => h.verbatim text
  | .style rule => h.style rule
  | .statement keyword prelude block => h.statement keyword prelude block
  | .group keyword prelude children => h.group keyword prelude children (h.holdsAll {} children)

theorem holdsAll (h : PurgeCases one all) (p : Protection) (nodes : List Node) : all p nodes :=
  match nodes with
  | [] => h.nil p
  | node :: rest => by
    by_cases hRule : node.isRule = true
    · cases hCovers : p.covers with
      | true => exact h.covered p node rest hRule hCovers (h.holdsAll p.afterRule rest)
      | false =>
        exact h.decided p node rest hRule hCovers (h.holds node) (h.holdsAll p rest)
    · cases node with
      | verbatim text => exact h.between p text rest (h.holdsAll (p.afterVerbatim text) rest)
      | _ => exact absurd rfl hRule

end

end PurgeCases

/-! ## What is removed -/

theorem selectors_purgeRule (rule : StyleRule) :
    (purgeRule keeps rule).selectors = rule.selectors.filter fun s => !keeps s := by
  unfold purgeRule
  dsimp only
  split
  · rfl
  · split
    · rename_i hNone
      rw [List.isEmpty_iff.mp hNone]
      rfl
    · rfl

theorem selectors_purge_cases :
    PurgeCases (fun node => (node.purge keeps).selectors = node.exposed.filter fun s => !keeps s)
      fun p nodes => (purgeAll keeps p nodes).selectors =
        (exposedAll p nodes).filter fun s => !keeps s where
  verbatim _ := rfl
  style rule := selectors_purgeRule rule
  statement _ _ _ := rfl
  group _ _ _ ih := ih
  nil _ := rfl
  between p text rest ih := by
    rw [purgeAll, exposedAll, ← ih]
    rfl
  covered p node rest hRule hCovers ih := by
    rw [purgeAll_rule hRule, exposedAll_rule hRule, if_pos hCovers, if_pos hCovers, ← ih]
    rfl
  decided p node rest hRule hCovers hOne ih := by
    rw [purgeAll_rule hRule, exposedAll_rule hRule, hCovers, if_neg Bool.false_ne_true,
      if_neg Bool.false_ne_true, List.filter_append, ← hOne, ← ih]
    rfl

/-- The removed selectors are the exposed ones that are not kept, in document order. -/
theorem selectors_purgeAll (keeps : String → Bool) (p : Protection) (nodes : List Node) :
    (purgeAll keeps p nodes).selectors = (exposedAll p nodes).filter fun s => !keeps s :=
  selectors_purge_cases.holdsAll p nodes

/-! ## Purges that change nothing -/

theorem withSelectors_self (rule : StyleRule) : rule.withSelectors rule.selectors = rule := by
  simp [StyleRule.withSelectors]

theorem nodes_purgeRule_of_keeps {rule : StyleRule} (h : ∀ s ∈ rule.selectors, keeps s = true) :
    (purgeRule keeps rule).nodes = [.style rule] ∧ (purgeRule keeps rule).rules = [] := by
  have hKept : rule.selectors.filter keeps = rule.selectors := List.filter_eq_self.mpr h
  unfold purgeRule
  dsimp only
  rw [hKept, withSelectors_self]
  split
  · exact ⟨rfl, rfl⟩
  · rename_i hNone
    rw [if_pos (by simpa using hNone)]
    exact ⟨rfl, rfl⟩

/-- A group that keeps all its children stays, whether it holds rules or not. -/
theorem purgedGroup_of_nodes {keyword prelude : String} {children : List Node} {q : Purged}
    (h : q.nodes = children) :
    (purgedGroup keyword prelude children q).nodes = [.group keyword prelude children] := by
  unfold purgedGroup
  dsimp only
  rw [h]
  cases children.any isRule <;> rfl

theorem purge_of_keeps_cases :
    PurgeCases (fun node => (∀ s ∈ node.exposed, keeps s = true) →
        (node.purge keeps).nodes = [node] ∧ (node.purge keeps).rules = [])
      fun p nodes => (∀ s ∈ exposedAll p nodes, keeps s = true) →
        (purgeAll keeps p nodes).nodes = nodes ∧ (purgeAll keeps p nodes).rules = [] where
  verbatim _ _ := ⟨rfl, rfl⟩
  style rule h := nodes_purgeRule_of_keeps h
  statement _ _ _ _ := ⟨rfl, rfl⟩
  group keyword prelude children ih h := ⟨purgedGroup_of_nodes (ih h).1, (ih h).2⟩
  nil _ _ := ⟨rfl, rfl⟩
  between p text rest ih h := by
    rw [exposedAll] at h
    rw [purgeAll]
    exact ⟨congrArg (Node.verbatim text :: ·) (ih h).1, (ih h).2⟩
  covered p node rest hRule hCovers ih h := by
    rw [exposedAll_rule hRule, if_pos hCovers] at h
    rw [purgeAll_rule hRule, if_pos hCovers]
    exact ⟨congrArg (node :: ·) (ih h).1, (ih h).2⟩
  decided p node rest hRule hCovers hOne ih h := by
    rw [exposedAll_rule hRule, hCovers, if_neg Bool.false_ne_true] at h
    rw [purgeAll_rule hRule, hCovers, if_neg Bool.false_ne_true]
    obtain ⟨hNodes, hRules⟩ := hOne fun s hs => h s (List.mem_append_left _ hs)
    obtain ⟨hNodes', hRules'⟩ := ih fun s hs => h s (List.mem_append_right _ hs)
    simp only [Purged.append, hNodes, hRules, hNodes', hRules', List.singleton_append,
      List.append_nil, and_self]

/-- If every exposed selector is kept, a purge leaves all nodes as they are. -/
theorem nodes_purgeAll_of_keeps (h : ∀ s ∈ exposedAll p nodes, keeps s = true) :
    (purgeAll keeps p nodes).nodes = nodes :=
  (purge_of_keeps_cases.holdsAll p nodes h).1

/-- If every exposed selector is kept, a purge removes no rule. -/
theorem rules_purgeAll_of_keeps (h : ∀ s ∈ exposedAll p nodes, keeps s = true) :
    (purgeAll keeps p nodes).rules = [] :=
  (purge_of_keeps_cases.holdsAll p nodes h).2

/-! ## Purging again -/

theorem exposedAll_append (hCovers : p.covers = false) (h : ∀ node ∈ nodes, node.isRule = true) :
    exposedAll p (nodes ++ rest) = nodes.flatMap exposed ++ exposedAll p rest := by
  induction nodes with
  | nil => rfl
  | cons node more ih =>
    rw [List.cons_append, exposedAll_rule (h node List.mem_cons_self), hCovers,
      if_neg Bool.false_ne_true, ih fun n hn => h n (List.mem_cons_of_mem _ hn),
      List.flatMap_cons, List.append_assoc]

/-- A style rule is left with selectors that are kept, or it had none. -/
theorem keeps_of_mem_purgeRule {rule : StyleRule} (h : node ∈ (purgeRule keeps rule).nodes) :
    node.isRule = true ∧ ∀ s ∈ node.exposed, keeps s = true := by
  unfold purgeRule at h
  dsimp only at h
  split at h
  · rw [List.mem_singleton.mp h]
    refine ⟨rfl, fun s hs => ?_⟩
    have hKept : (rule.withSelectors (rule.selectors.filter keeps)).selectors =
        rule.selectors.filter keeps := by
      unfold StyleRule.withSelectors
      split
      · rename_i hSame
        exact (beq_iff_eq.mp hSame).symm
      · rfl
    rw [exposed, hKept] at hs
    exact (List.mem_filter.mp hs).2
  · split at h
    · rename_i hNone
      rw [List.mem_singleton.mp h]
      refine ⟨rfl, fun s hs => ?_⟩
      rw [exposed, List.isEmpty_iff.mp hNone] at hs
      cases hs
    · cases h

theorem keeps_purge_cases :
    PurgeCases (fun node => ∀ left ∈ (node.purge keeps).nodes,
        left.isRule = node.isRule ∧ ∀ s ∈ left.exposed, keeps s = true)
      fun p nodes => ∀ s ∈ exposedAll p (purgeAll keeps p nodes).nodes, keeps s = true where
  verbatim text left h := by
    rw [List.mem_singleton.mp h]
    exact ⟨rfl, nofun⟩
  style rule left h := keeps_of_mem_purgeRule h
  statement keyword prelude block left h := by
    rw [List.mem_singleton.mp h]
    exact ⟨rfl, nofun⟩
  group keyword prelude children ih left h := by
    unfold purge purgedGroup at h
    dsimp only at h
    split at h
    · rw [List.mem_singleton.mp h]
      exact ⟨rfl, ih⟩
    · cases h
  nil _ _ := nofun
  between p text rest ih := by
    rw [purgeAll]
    exact ih
  covered p node rest hRule hCovers ih := by
    rw [purgeAll_rule hRule, if_pos hCovers]
    change ∀ s ∈ exposedAll p (node :: (purgeAll keeps p.afterRule rest).nodes), _
    rw [exposedAll_rule hRule, if_pos hCovers]
    exact ih
  decided p node rest hRule hCovers hOne ih := by
    rw [purgeAll_rule hRule, hCovers, if_neg Bool.false_ne_true]
    change ∀ s ∈ exposedAll p ((node.purge keeps).nodes ++ (purgeAll keeps p rest).nodes), _
    rw [exposedAll_append hCovers fun left h => (hOne left h).1.trans hRule]
    intro s hs
    rcases List.mem_append.mp hs with hs | hs
    · obtain ⟨left, hLeft, hs⟩ := List.mem_flatMap.mp hs
      exact (hOne left hLeft).2 s hs
    · exact ih s hs

/-- What a purge leaves exposed is kept. -/
theorem keeps_of_mem_exposedAll_purgeAll {s : String}
    (h : s ∈ exposedAll p (purgeAll keeps p nodes).nodes) : keeps s = true :=
  keeps_purge_cases.holdsAll p nodes s h

/-- Purging again what a purge has left gives the same nodes, and no selector and no rule is
removed. -/
theorem purgeAll_purgeAll (keeps : String → Bool) (p : Protection) (nodes : List Node) :
    (purgeAll keeps p (purgeAll keeps p nodes).nodes).nodes = (purgeAll keeps p nodes).nodes ∧
      (purgeAll keeps p (purgeAll keeps p nodes).nodes).selectors = [] ∧
      (purgeAll keeps p (purgeAll keeps p nodes).nodes).rules = [] := by
  have hKept : ∀ s ∈ exposedAll p (purgeAll keeps p nodes).nodes, keeps s = true :=
    fun s hs => keeps_of_mem_exposedAll_purgeAll hs
  refine ⟨nodes_purgeAll_of_keeps hKept, ?_, rules_purgeAll_of_keeps hKept⟩
  rw [selectors_purgeAll]
  exact List.filter_eq_nil_iff.mpr fun s hs => by simp [hKept s hs]

end StyleSieve.Node
