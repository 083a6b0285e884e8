import Mathlib.Data.List.Basic
import StyleSieve.Proofs.Purge.Protected

/-!
# What becomes of the rules of a style sheet

Every rule of a style sheet is either left by a purge, perhaps with fewer selectors or children,
or it is gone. A `Fate` is a rule where it stands together with what is left of it.

* `exists_fates`: the fates of all rules account for everything that a purge leaves and removes.
* `interleaved_of_fates`: so the selectors that are left and those that are removed are all the
  selectors, in document order.
* `purgeAll_accounts`: the account in terms of selectors, blocks, texts of rules and groups.
-/

namespace StyleSieve

/-! ## Interleavings -/

/-- The last list consists of the elements of the other two, which keep their order. -/
inductive Interleaved {α : Type} : List α → List α → List α → Prop
  | nil : Interleaved [] [] []
  | left {x : α} {xs ys zs : List α} : Interleaved xs ys zs → Interleaved (x :: xs) ys (x :: zs)
  | right {y : α} {xs ys zs : List α} : Interleaved xs ys zs → Interleaved xs (y :: ys) (y :: zs)

namespace Interleaved

variable {α β : Type} {xs xs' ys ys' zs zs' : List α}

theorem only_left (xs : List α) : Interleaved xs [] xs := by
  induction xs with
  | nil => exact .nil
  | cons x xs ih => exact .left ih

theorem append (h : Interleaved xs ys zs) (h' : Interleaved xs' ys' zs') :
    Interleaved (xs ++ xs') (ys ++ ys') (zs ++ zs') := by
  induction h with
  | nil => exact h'
  | left _ ih => exact .left ih
  | right _ ih => exact .right ih

/-- A list consists of what satisfies a test and what does not. -/
theorem filter (test : α → Bool) (xs : List α) :
    Interleaved (xs.filter test) (xs.filter fun x => !test x) xs := by
  induction xs with
  | nil => exact .nil
  | cons x xs ih =>
    by_cases hTest : test x = true
    · rw [List.filter_cons_of_pos hTest, List.filter_cons_of_neg (by simp [hTest])]
      exact .left ih
    · rw [List.filter_cons_of_neg hTest, List.filter_cons_of_pos (by simp [hTest])]
      exact .right ih

theorem flatMap {f g h : β → List α} {bs : List β} (hEach : ∀ b ∈ bs, Interleaved (f b) (g b) (h b)) :
    Interleaved (bs.flatMap f) (bs.flatMap g) (bs.flatMap h) := by
  induction bs with
  | nil => exact .nil
  | cons b bs ih =>
    rw [List.flatMap_cons, List.flatMap_cons, List.flatMap_cons]
    apply append (hEach b List.mem_cons_self)
    exact ih fun c hc => hEach c (List.mem_cons_of_mem b hc)

end Interleaved

/-! ## Fates -/

namespace Node

/-- The selectors that a node has itself, apart from those of its children. -/
def selectors : Node → List String
  | .style rule => rule.selectors
  | _ => []

/-- The selectors of all style rules among siblings, in document order. -/
def selectorsAll (nodes : List Node) : List String := (rulesAll nodes).flatMap selectors

end Node

/-- A rule where it stands, and what is left of it. -/
structure Fate extends Occurrence where
  left : Option Node

namespace Fate

open Node

/-- What a purge makes of a rule. -/
inductive IsBy (keeps : String → Bool) : Fate → Prop
  | untouched (rule : Node) : IsBy keeps ⟨⟨rule, true⟩, some rule⟩
  | thinned (rule : StyleRule) :
      IsBy keeps ⟨⟨.style rule, false⟩,
        some (.style (rule.withSelectors (rule.selectors.filter keeps)))⟩
  | removed (rule : StyleRule) (hSome : rule.selectors ≠ [])
      (hNone : ∀ s ∈ rule.selectors, keeps s = false) : IsBy keeps ⟨⟨.style rule, false⟩, none⟩
  | statement (keyword prelude : String) (block : Option String) :
      IsBy keeps ⟨⟨.statement keyword prelude block, false⟩, some (.statement keyword prelude block)⟩
  | purged (keyword prelude : String) (children : List Node) :
      IsBy keeps ⟨⟨.group keyword prelude children, false⟩,
        some (.group keyword prelude (purgeAll keeps {} children).nodes)⟩
  | emptied (keyword prelude : String) (children : List Node) (hSome : children.any isRule = true)
      (hNone : (purgeAll keeps {} children).nodes.any isRule = false) :
      IsBy keeps ⟨⟨.group keyword prelude children, false⟩, none⟩

/-- The selectors that are removed from a rule. -/
def removed (keeps : String → Bool) (f : Fate) : List String :=
  if f.isProtected then [] else f.rule.selectors.filter fun s => !keeps s

/-- The text of a style rule of which nothing is left. -/
def lostText? (f : Fate) : Option String :=
  match f.rule, f.left with
  | .style rule, none => some rule.text
  | _, _ => none

/-- The fate of a rule that stays as it is. -/
def untouchedAt (o : Occurrence) : Fate := ⟨o, some o.rule⟩

variable {keeps : String → Bool} {f : Fate} {rule : StyleRule}

theorem selectors_withSelectors (rule : StyleRule) (kept : List String) :
    (rule.withSelectors kept).selectors = kept := by
  unfold StyleRule.withSelectors
  by_cases hSame : (kept == rule.selectors) = true
  · rw [if_pos hSame]
    exact (beq_iff_eq.mp hSame).symm
  · rw [if_neg hSame]

theorem block_withSelectors (rule : StyleRule) (kept : List String) :
    (rule.withSelectors kept).block = rule.block := by
  unfold StyleRule.withSelectors
  by_cases hSame : (kept == rule.selectors) = true
  · rw [if_pos hSame]
  · rw [if_neg hSame]

theorem IsBy.style (h : f.IsBy keeps) (hRule : f.rule = .style rule) :
    ∀ left ∈ f.left, ∃ kept : StyleRule, left = .style kept ∧ kept.block = rule.block ∧
      ∀ s ∈ kept.selectors, keeps s = true ∨ f.isProtected = true := by
  intro left hLeft
  cases h with
  | untouched node =>
    cases hRule
    cases hLeft
    exact ⟨rule, rfl, rfl, fun s _ => Or.inr rfl⟩
  | thinned =>
    cases hRule
    cases hLeft
    refine ⟨_, rfl, block_withSelectors .., fun s hs => Or.inl ?_⟩
    rw [selectors_withSelectors] at hs
    exact (List.mem_filter.mp hs).2
  | removed hSome hNone => cases hLeft
  | statement => cases hRule
  | purged => cases hRule
  | emptied => cases hRule

theorem IsBy.group (h : f.IsBy keeps) {keyword prelude : String} {children : List Node}
    (hRule : f.rule = .group keyword prelude children) (hLeft : f.left = none) :
    children.any isRule = true ∧ (purgeAll keeps {} children).nodes.any isRule = false := by
  cases h with
  | untouched node => cases hLeft
  | thinned => cases hLeft
  | removed hSome hNone => cases hRule
  | statement => cases hLeft
  | purged => cases hLeft
  | emptied keyword prelude children hSome hNone =>
    cases hRule
    exact ⟨hSome, hNone⟩

/-- The selectors of a rule are those that are left and those that are removed. -/
theorem IsBy.interleaved (h : f.IsBy keeps) :
    Interleaved (f.left.toList.flatMap Node.selectors) (f.removed keeps) f.rule.selectors := by
  have hSingle : ∀ node : Node, (some node).toList.flatMap Node.selectors = node.selectors :=
    fun node => List.append_nil _
  cases h with
  | untouched node =>
    rw [hSingle]
    exact .only_left _
  | thinned rule =>
    rw [hSingle]
    show Interleaved (rule.withSelectors _).selectors (rule.selectors.filter _) rule.selectors
    rw [selectors_withSelectors]
    exact .filter keeps _
  | removed rule hSome hNone =>
    have hNothing : rule.selectors.filter keeps = [] :=
      List.filter_eq_nil_iff.mpr fun s hs => by simp [hNone s hs]
    show Interleaved [] (rule.selectors.filter _) rule.selectors
    rw [← hNothing]
    exact .filter keeps _
  | statement => exact .nil
  | purged => exact .nil
  | emptied => exact .nil

end Fate

/-! ## The account of a purge -/

/-- The fates account for the rules that are there, and for what a purge leaves of them and
reports as removed. -/
structure Accounts (keeps : String → Bool) (there : List Occurrence) (p : Purged)
    (fates : List Fate) : Prop where
  there : fates.map Fate.toOccurrence = there
  left : fates.filterMap Fate.left = Node.rulesAll p.nodes
  isBy : ∀ f ∈ fates, f.IsBy keeps
  selectors : p.selectors = fates.flatMap (Fate.removed keeps)
  rules : p.rules = fates.filterMap Fate.lostText?

namespace Accounts

open Node

variable {keeps : String → Bool} {there there' : List Occurrence} {p p' : Purged}
  {fates fates' : List Fate}

theorem append (h : Accounts keeps there p fates) (h' : Accounts keeps there' p' fates') :
    Accounts keeps (there ++ there') (p.append p') (fates ++ fates') where
  there := by rw [List.map_append, h.there, h'.there]
  left := by
    rw [List.filterMap_append, h.left, h'.left]
    exact (rulesAll_append p.nodes p'.nodes).symm
  isBy f hf := (List.mem_append.mp hf).elim (h.isBy f) (h'.isBy f)
  selectors := by
    rw [List.flatMap_append, ← h.selectors, ← h'.selectors]
    rfl
  rules := by
    rw [List.filterMap_append, ← h.rules, ← h'.rules]
    rfl

theorem nothing : Accounts keeps [] .nothing [] := ⟨rfl, rfl, nofun, rfl, rfl⟩

/-- A verbatim node has no rules. -/
theorem verbatim (text : String) : Accounts keeps [] (.keeping (.verbatim text)) [] :=
  ⟨rfl, rfl, nofun, rfl, rfl⟩

/-- A protected node stays as it is, with everything in it. -/
theorem covered (node : Node) :
    Accounts keeps (node.occurrences true) (.keeping node)
      ((node.occurrences true).map Fate.untouchedAt) where
  there := by
    rw [List.map_map]
    exact List.map_id _
  left := by
    show _ = node.rules ++ []
    rw [List.filterMap_map, List.append_nil, ← map_rule_occurrences true, ← List.filterMap_eq_map]
    rfl
  isBy f hf := by
    obtain ⟨⟨rule, isProtected⟩, hMem, rfl⟩ := List.mem_map.mp hf
    cases isProtected_of_mem_occurrences node _ hMem
    exact .untouched rule
  selectors := by
    rw [List.flatMap_map]
    refine (List.flatMap_eq_nil_iff.mpr fun o ho => ?_).symm
    exact if_pos (isProtected_of_mem_occurrences node o ho)
  rules := by
    rw [List.filterMap_map]
    refine (List.filterMap_eq_nil_iff.mpr fun o _ => ?_).symm
    obtain ⟨rule, _⟩ := o
    cases rule <;> rfl

/-- A style rule that is decided about. -/
theorem style (rule : StyleRule) :
    ∃ fates, Accounts keeps [⟨.style rule, false⟩] (purgeRule keeps rule) fates := by
  have hRemoved : [rule.selectors.filter fun s => !keeps s].flatten =
      rule.selectors.filter fun s => !keeps s := List.append_nil _
  by_cases hNone : rule.selectors.filter keeps = []
  · by_cases hEmpty : rule.selectors = []
    · refine ⟨[⟨⟨.style rule, false⟩, some (.style rule)⟩], rfl, ?_, ?_, ?_, ?_⟩
      · simp [purgeRule, hEmpty, Purged.keeping, rulesAll, Node.rules]
      · intro f hf
        have hSame : Fate.IsBy keeps _ := .thinned rule
        rw [hNone, ← hEmpty, Node.withSelectors_self] at hSame
        rw [List.mem_singleton.mp hf]
        exact hSame
      · simp [purgeRule, hEmpty, Purged.keeping, Fate.removed, Node.selectors]
      · simp [purgeRule, hEmpty, Purged.keeping, Fate.lostText?]
    · refine ⟨[⟨⟨.style rule, false⟩, none⟩], rfl, ?_, ?_, ?_, ?_⟩
      · simp [purgeRule, hNone, hEmpty, rulesAll]
      · intro f hf
        rw [List.mem_singleton.mp hf]
        refine .removed rule hEmpty fun s hs => ?_
        simpa using List.filter_eq_nil_iff.mp hNone s hs
      · simp [purgeRule, hNone, hEmpty, Fate.removed, Node.selectors]
      · simp [purgeRule, hNone, hEmpty, Fate.lostText?]
  · refine ⟨[⟨⟨.style rule, false⟩, some (.style (rule.withSelectors (rule.selectors.filter keeps)))⟩],
      rfl, ?_, ?_, ?_, ?_⟩
    · simp [purgeRule, hNone, rulesAll, Node.rules]
    · intro f hf
      rw [List.mem_singleton.mp hf]
      exact .thinned rule
    · simp [purgeRule, hNone, Fate.removed, Node.selectors]
    · simp [purgeRule, hNone, Fate.lostText?]

/-- The fate of a group comes on top of the fates in it. -/
theorem cons (h : Accounts keeps there p fates) {f : Fate} {nodes : List Node} (hBy : f.IsBy keeps)
    (hLeft : (f :: fates).filterMap Fate.left = rulesAll nodes) (hRemoved : f.removed keeps = [])
    (hLost : f.lostText? = none) :
    Accounts keeps (f.toOccurrence :: there) { p with nodes } (f :: fates) where
  there := congrArg (f.toOccurrence :: ·) h.there
  left := hLeft
  isBy := List.forall_mem_cons.mpr ⟨hBy, h.isBy⟩
  selectors := by rw [List.flatMap_cons, hRemoved, ← h.selectors, List.nil_append]
  rules := by rw [List.filterMap_cons_none hLost, ← h.rules]

/-- A group that is decided about, from the account of its children. -/
theorem group {children : List Node} (keyword prelude : String)
    (h : Accounts keeps there (purgeAll keeps {} children) fates) :
    ∃ fates, Accounts keeps (⟨.group keyword prelude children, false⟩ :: there)
      (purge keeps (.group keyword prelude children)) fates := by
  rw [purge, purgedGroup]
  by_cases hStays : ((purgeAll keeps {} children).nodes.any isRule || !children.any isRule) = true
  · rw [if_pos hStays]
    refine ⟨_, h.cons (.purged keyword prelude children) ?_ rfl rfl⟩
    show _ :: fates.filterMap Fate.left = _ :: rulesAll _ ++ []
    rw [h.left, List.append_nil]
  · obtain ⟨hNone, hSome⟩ := Bool.or_eq_false_iff.mp (Bool.eq_false_iff.mpr hStays)
    rw [if_neg hStays]
    refine ⟨_, h.cons (.emptied keyword prelude children (by simpa using hSome) hNone) ?_ rfl rfl⟩
    show fates.filterMap Fate.left = []
    rw [h.left, rulesAll_of_no_rule hNone]

end Accounts

namespace Node

variable {keeps : String → Bool}

/-- The protection along siblings is the one behind the siblings in front, so that the induction
speaks of all lists of siblings in front. -/
theorem accounts_cases :
    PurgeCases
      (fun node => ∃ fates, Accounts keeps (node.occurrences false) (node.purge keeps) fates)
      fun p nodes => ∀ front, Protection.behind front = p →
        ∃ fates, Accounts keeps (occurrencesAll false front nodes) (purgeAll keeps p nodes) fates where
  verbatim text := ⟨[], .verbatim text⟩
  style rule := Accounts.style rule
  statement keyword prelude block := by
    refine ⟨[⟨⟨.statement keyword prelude block, false⟩, some (.statement keyword prelude block)⟩],
      rfl, rfl, ?_, rfl, rfl⟩
    intro f hf
    rw [List.mem_singleton.mp hf]
    exact .statement keyword prelude block
  group keyword prelude children ih := by
    obtain ⟨fates, h⟩ := ih [] rfl
    exact h.group keyword prelude
  nil p front _ := ⟨[], .nothing⟩
  between p text rest ih front hFront := by
    have hPast : Protection.behind (.verbatim text :: front) = p.afterVerbatim text := by
      rw [← hFront]
      rfl
    obtain ⟨fates, h⟩ := ih (.verbatim text :: front) hPast
    rw [purgeAll]
    exact ⟨fates, (Accounts.verbatim text).append h⟩
  covered p node rest hRule hCovers ih front hFront := by
    have hPast : Protection.behind (node :: front) = p.afterRule := by
      show (Protection.behind front).past node = p.afterRule
      rw [hFront, Protection.past_rule hRule]
    have hShields : shields front = true := by
      rw [← Protection.covers_behind, hFront, hCovers]
    obtain ⟨fates, h⟩ := ih (node :: front) hPast
    rw [purgeAll_rule hRule, if_pos hCovers, occurrencesAll, hShields]
    exact ⟨_, (Accounts.covered node).append h⟩
  decided p node rest hRule hCovers hOne ih front hFront := by
    have hPast : Protection.behind (node :: front) = p := by
      show (Protection.behind front).past node = p
      rw [hFront, Protection.past_rule hRule, Protection.afterRule_of_not_covers hCovers]
    have hShields : shields front = false := by
      rw [← Protection.covers_behind, hFront, hCovers]
    obtain ⟨fates, h⟩ := hOne
    obtain ⟨fates', h'⟩ := ih (node :: front) hPast
    rw [purgeAll_rule hRule, hCovers, if_neg Bool.false_ne_true, occurrencesAll, hShields]
    exact ⟨fates ++ fates', h.append h'⟩

/-- The fates of all rules account for a purge. -/
theorem exists_fates (keeps : String → Bool) (nodes : List Node) :
    ∃ fates, Accounts keeps (occurrencesAll false [] nodes) (purgeAll keeps {} nodes) fates :=
  accounts_cases.holdsAll {} nodes [] rfl

/-- The selectors are those that are left and those that are removed, in document order. -/
theorem interleaved_of_fates {nodes : List Node} {p : Purged} {fates : List Fate}
    (h : Accounts keeps (occurrencesAll false [] nodes) p fates) :
    Interleaved (selectorsAll p.nodes) p.selectors (selectorsAll nodes) := by
  have hThere : fates.map (fun f => f.rule) = rulesAll nodes := by
    rw [← map_rule_occurrencesAll false [] nodes, ← h.there, List.map_map]
    rfl
  have hLeft : selectorsAll p.nodes = fates.flatMap fun f => f.left.toList.flatMap selectors := by
    rw [selectorsAll, ← h.left, List.filterMap_eq_flatMap_toList, List.flatMap_assoc]
  rw [hLeft, h.selectors, selectorsAll, ← hThere, List.flatMap_map]
  exact Interleaved.flatMap fun f hf => (h.isBy f hf).interleaved

/-- A purge neither loses nor invents a selector. The selectors that were there are those that
are left and those that are removed, in document order, and only selectors that are not kept are
removed. Every rule that is left stands for one that was there: a style rule has the block of that
one, and has selectors that are kept unless that one is protected. The texts of removed rules are
those of the style rules that nothing is left of, and nothing is left of a group only if it had
rules and its purged children have none. -/
theorem purgeAll_accounts (keeps : String → Bool) (nodes : List Node) :
    Interleaved (selectorsAll (purgeAll keeps {} nodes).nodes) (purgeAll keeps {} nodes).selectors
        (selectorsAll nodes) ∧
      (∀ s ∈ (purgeAll keeps {} nodes).selectors, keeps s = false) ∧
      ∃ fates : List Fate,
        fates.map Fate.toOccurrence = occurrencesAll false [] nodes ∧
        fates.filterMap Fate.left = rulesAll (purgeAll keeps {} nodes).nodes ∧
        (∀ f ∈ fates, f.IsBy keeps) ∧
        (∀ f ∈ fates, ∀ rule, f.rule = .style rule → ∀ left ∈ f.left,
          ∃ kept : StyleRule, left = .style kept ∧ kept.block = rule.block ∧
            ∀ s ∈ kept.selectors, keeps s = true ∨ f.isProtected = true) ∧
        (purgeAll keeps {} nodes).rules = fates.filterMap Fate.lostText? ∧
        ∀ f ∈ fates, ∀ keyword prelude children, f.rule = .group keyword prelude children →
          f.left = none → children.any isRule = true ∧
            (purgeAll keeps {} children).nodes.any isRule = false := by
  obtain ⟨fates, h⟩ := exists_fates keeps nodes
  refine ⟨interleaved_of_fates h, ?_, fates, h.there, h.left, h.isBy, ?_, h.rules, ?_⟩
  · intro s hs
    rw [selectors_purgeAll] at hs
    simpa using (List.mem_filter.mp hs).2
  · intro f hf rule hRule
    exact (h.isBy f hf).style hRule
  · intro f hf keyword prelude children hRule hLeft
    exact (h.isBy f hf).group hRule hLeft

end Node

end StyleSieve
