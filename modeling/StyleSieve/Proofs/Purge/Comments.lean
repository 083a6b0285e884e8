import Mathlib.Data.List.Induction
import StyleSieve.Proofs.Purge.Protected

/-!
# What comments ask of a purge

A declarative reading of the comments that protect rules, and the purge as the relation that this
reading gives. What becomes of a rule does not depend on what stands inside of its siblings, and
what becomes of the children of a group does not depend on what stands outside.

* `directive?_eq_some_iff`: which comments give which order.
* `covers_along_iff`: the protection that a purge keeps track of is the one of the reading.
* `purgeAll_iff_settled`: a purge does to siblings on every level what the reading says.
* `purgeAll_follows_comments`: this, and that a rule and its siblings do not depend on each other
  otherwise.
-/

namespace StyleSieve.Node

variable {keeps : String → Bool} {p : Protection} {q : Purged} {node : Node}
  {front nodes rest : List Node} {P Q : Node → Prop}

/-! ## The declarative reading -/

/-- A node with `P` is among the nodes, and behind it there are only nodes with `Q`. -/
def HasLast (P Q : Node → Prop) (nodes : List Node) : Prop :=
  ∃ before node behind, nodes = before ++ node :: behind ∧ P node ∧ ∀ other ∈ behind, Q other

/-- The siblings in front, in document order, protect the rule behind them: the last comment that
opens or closes a range opens one, or a comment behind the last rule asks to ignore the next. -/
def Shielded (front : List Node) : Prop :=
  HasLast (fun node => node.directive? = some .startIgnoring)
      (fun node => node.directive? ≠ some .startIgnoring ∧ node.directive? ≠ some .endIgnoring) front ∨
    HasLast (fun node => node.directive? = some .ignoreNext) (fun node => node.isRule = false) front

/-- A node gives an order just if it is a comment that holds the words of the order, whatever the blanks
around them and the case of their letters. -/
theorem directive?_eq_some_iff {d : Directive} :
    node.directive? = some d ↔ ∃ text : String, node = .verbatim text ∧ node.isComment = true ∧
      Text.lowerChars (Text.trimChars (text.toList.drop 2).dropLast.dropLast) = d.words.toList := by
  cases node with
  | verbatim text =>
    rw [directive?]
    by_cases hComment : (verbatim text).isComment = true
    · rw [if_pos hComment, Directive.ofComment?_eq_some_iff]
      simp [hComment]
    · simp [hComment]
  | _ => simp [directive?]

mutual

/-- What becomes of a rule that no comment protects. -/
inductive Decided (keeps : String → Bool) : Node → Purged → Prop where
  | thinned (rule : StyleRule) (hSome : ∃ s ∈ rule.selectors, keeps s = true) :
      Decided keeps (.style rule)
        ⟨[.style (rule.withSelectors (rule.selectors.filter keeps))],
          rule.selectors.filter fun s => !keeps s, [], rule.selectors⟩
  | bare (rule : StyleRule) (hNone : rule.selectors = []) :
      Decided keeps (.style rule) (.keeping (.style rule))
  | removed (rule : StyleRule) (hSome : rule.selectors ≠ [])
      (hNone : ∀ s ∈ rule.selectors, keeps s = false) :
      Decided keeps (.style rule) ⟨[], rule.selectors, [rule.text], rule.selectors⟩
  | statement (keyword prelude : String) (block : Option String) :
      Decided keeps (.statement keyword prelude block) (.keeping (.statement keyword prelude block))
  | purged (keyword prelude : String) {children : List Node} {q : Purged}
      (hChildren : Settled keeps [] children q)
      (hStays : q.nodes.any isRule = true ∨ children.any isRule = false) :
      Decided keeps (.group keyword prelude children)
        { q with nodes := [.group keyword prelude q.nodes] }
  | emptied (keyword prelude : String) {children : List Node} {q : Purged}
      (hChildren : Settled keeps [] children q)
      (hNone : q.nodes.any isRule = false) (hSome : children.any isRule = true) :
      Decided keeps (.group keyword prelude children) { q with nodes := [] }

/-- What becomes of siblings that stand behind those in front. -/
inductive Settled (keeps : String → Bool) : List Node → List Node → Purged → Prop where
  | nil {front : List Node} : Settled keeps front [] .nothing
  | verbatim {front rest : List Node} {q : Purged} (text : String)
      (h : Settled keeps (front ++ [.verbatim text]) rest q) :
      Settled keeps front (.verbatim text :: rest) ((Purged.keeping (.verbatim text)).append q)
  | shielded {front rest : List Node} {node : Node} {q : Purged} (hRule : node.isRule = true)
      (hShielded : Shielded front) (h : Settled keeps (front ++ [node]) rest q) :
      Settled keeps front (node :: rest) ((Purged.keeping node).append q)
  | decided {front rest : List Node} {node : Node} {own q : Purged} (hRule : node.isRule = true)
      (hOpen : ¬Shielded front) (hOwn : Decided keeps node own)
      (h : Settled keeps (front ++ [node]) rest q) :
      Settled keeps front (node :: rest) (own.append q)

end

/-! ## Shielding -/

theorem hasLast_nil : ¬HasLast P Q [] := by
  rintro ⟨before, node, behind, hNodes, -⟩
  simp at hNodes

theorem hasLast_concat : HasLast P Q (nodes ++ [node]) ↔ P node ∨ Q node ∧ HasLast P Q nodes := by
  constructor
  · rintro ⟨before, first, behind, hNodes, hFirst, hBehind⟩
    rcases List.eq_nil_or_concat behind with rfl | ⟨behind, last, rfl⟩
    · obtain ⟨-, hSame⟩ := List.append_inj' hNodes rfl
      cases hSame
      exact Or.inl hFirst
    · have hSplit : nodes ++ [node] = (before ++ first :: behind) ++ [last] := by simpa using hNodes
      obtain ⟨rfl, hSame⟩ := List.append_inj' hSplit rfl
      cases hSame
      refine Or.inr ⟨hBehind node (by simp), before, first, behind, rfl, hFirst, fun other hOther => ?_⟩
      exact hBehind other (by simp [hOther])
  · rintro (hNode | ⟨hNode, before, first, behind, rfl, hFirst, hBehind⟩)
    · exact ⟨nodes, node, [], rfl, hNode, nofun⟩
    · refine ⟨before, first, behind ++ [node], by simp, hFirst, fun other hOther => ?_⟩
      rcases List.mem_append.mp hOther with hOther | hOther
      · exact hBehind other hOther
      · rwa [List.mem_singleton.mp hOther]

/-- The protection behind siblings in document order. -/
def along (p : Protection) (front : List Node) : Protection := front.foldl Protection.past p

theorem along_concat : along p (front ++ [node]) = (along p front).past node := List.foldl_append

theorem ignoring_along_iff :
    (along {} front).ignoring = true ↔
      HasLast (fun node => node.directive? = some .startIgnoring)
        (fun node => node.directive? ≠ some .startIgnoring ∧ node.directive? ≠ some .endIgnoring)
        front := by
  induction front using List.reverseRecOn with
  | nil => exact iff_of_false Bool.false_ne_true hasLast_nil
  | append_singleton front node ih =>
    rw [along_concat, hasLast_concat, ← ih]
    cases node with
    | verbatim text =>
      rw [Protection.past_verbatim]
      cases hDirective : directive? (.verbatim text) with
      | none => simp
      | some d => cases d <;> simp [Protection.after]
    | _ => simp [Protection.past, Protection.afterRule, directive?]

theorem next_along_iff :
    (along {} front).next = true ↔
      HasLast (fun node => node.directive? = some .ignoreNext) (fun node => node.isRule = false)
        front := by
  induction front using List.reverseRecOn with
  | nil => exact iff_of_false Bool.false_ne_true hasLast_nil
  | append_singleton front node ih =>
    rw [along_concat, hasLast_concat, ← ih]
    cases node with
    | verbatim text =>
      rw [Protection.past_verbatim]
      cases hDirective : directive? (.verbatim text) with
      | none => simp [isRule]
      | some d => cases d <;> simp [Protection.after, isRule]
    | _ => simp [Protection.past, Protection.afterRule, isRule, directive?]

/-- The protection behind siblings covers the next rule exactly if the comments among them say so. -/
theorem covers_along_iff : (along {} front).covers = true ↔ Shielded front := by
  rw [Protection.covers, Bool.or_eq_true, ignoring_along_iff, next_along_iff]
  rfl

/-! ## The purge as a relation -/

theorem purgeRule_iff_decided {rule : StyleRule} :
    purgeRule keeps rule = q ↔ Decided keeps (.style rule) q := by
  by_cases hEmpty : rule.selectors = []
  · have hSame : purgeRule keeps rule = .keeping (.style rule) := by simp [purgeRule, hEmpty]
    rw [hSame]
    constructor
    · rintro rfl
      exact .bare rule hEmpty
    · intro h
      cases h with
      | thinned _ hSome => simp [hEmpty] at hSome
      | bare => rfl
      | removed _ hSome => exact absurd hEmpty hSome
  · by_cases hKept : ∃ s ∈ rule.selectors, keeps s = true
    · have hSome : ¬rule.selectors.filter keeps = [] := by simpa using hKept
      have hSame : purgeRule keeps rule =
          ⟨[.style (rule.withSelectors (rule.selectors.filter keeps))],
            rule.selectors.filter fun s => !keeps s, [], rule.selectors⟩ := by
        simp [purgeRule, hSome]
      rw [hSame]
      constructor
      · rintro rfl
        exact .thinned rule hKept
      · intro h
        cases h with
        | thinned => rfl
        | bare _ hNone => exact absurd hNone hEmpty
        | removed _ _ hNone =>
          obtain ⟨s, hs, hTrue⟩ := hKept
          simp [hNone s hs] at hTrue
    · have hNone : ∀ s ∈ rule.selectors, keeps s = false := by simpa using hKept
      have hSame : purgeRule keeps rule = ⟨[], rule.selectors, [rule.text], rule.selectors⟩ := by
        have hAll : rule.selectors.filter (fun s => !keeps s) = rule.selectors :=
          List.filter_eq_self.mpr fun s hs => by simp [hNone s hs]
        have hNothing : rule.selectors.filter keeps = [] :=
          List.filter_eq_nil_iff.mpr fun s hs => by simp [hNone s hs]
        simp [purgeRule, hAll, hNothing, hEmpty]
      rw [hSame]
      constructor
      · rintro rfl
        exact .removed rule hEmpty hNone
      · intro h
        cases h with
        | thinned _ hSome => exact absurd hSome hKept
        | bare _ hNone => exact absurd hNone hEmpty
        | removed => rfl

theorem purgedGroup_cases {keyword prelude : String} {children : List Node} (inner : Purged) :
    (inner.nodes.any isRule = true ∨ children.any isRule = false) ∧
        purgedGroup keyword prelude children inner =
          { inner with nodes := [.group keyword prelude inner.nodes] } ∨
      (inner.nodes.any isRule = false ∧ children.any isRule = true) ∧
        purgedGroup keyword prelude children inner = { inner with nodes := [] } := by
  unfold purgedGroup
  cases hLeft : inner.nodes.any isRule <;> cases hThere : children.any isRule <;> simp

/-- A group is decided about by its children, among which no comment stands in front. -/
theorem purge_group_iff_decided {keyword prelude : String} {children : List Node}
    (hChildren : ∀ q, purgeAll keeps {} children = q ↔ Settled keeps [] children q) (q : Purged) :
    (Node.group keyword prelude children).purge keeps = q ↔ Decided keeps (.group keyword prelude children) q := by
  rw [purge]
  constructor
  · rintro rfl
    rcases purgedGroup_cases (purgeAll keeps {} children) with ⟨hStays, hSame⟩ | ⟨⟨hNone, hSome⟩, hSame⟩
    · rw [hSame]
      exact .purged keyword prelude ((hChildren _).mp rfl) hStays
    · rw [hSame]
      exact .emptied keyword prelude ((hChildren _).mp rfl) hNone hSome
  · intro h
    rcases purgedGroup_cases (purgeAll keeps {} children) with ⟨hStays, hSame⟩ | ⟨⟨hNone, hSome⟩, hSame⟩
    · cases h with
      | purged _ _ hInner =>
        rw [hSame, (hChildren _).mpr hInner]
      | emptied _ _ hInner hNone' hSome' =>
        rw [(hChildren _).mpr hInner] at hStays
        simp [hNone', hSome'] at hStays
    · cases h with
      | purged _ _ hInner hStays' =>
        rw [(hChildren _).mpr hInner] at hNone
        simp [hNone, hSome] at hStays'
      | emptied _ _ hInner =>
        rw [hSame, (hChildren _).mpr hInner]

theorem settled_cases :
    PurgeCases (fun node => node.isRule = true → ∀ q, node.purge keeps = q ↔ Decided keeps node q)
      fun p nodes => ∀ front, along {} front = p →
        ∀ q, purgeAll keeps p nodes = q ↔ Settled keeps front nodes q where
  verbatim text hRule := by cases hRule
  style rule _ q := purgeRule_iff_decided
  statement keyword prelude block _ q := by
    constructor
    · rintro rfl
      exact .statement keyword prelude block
    · intro h
      cases h
      rfl
  group keyword prelude children ih _ q := purge_group_iff_decided (ih [] rfl) q
  nil p front _ q := by
    constructor
    · rintro rfl
      exact .nil
    · intro h
      cases h with
      | nil => rfl
  between p text rest ih front hFront q := by
    have hRest := ih (front ++ [.verbatim text]) (by rw [along_concat, hFront]; rfl)
    rw [purgeAll]
    constructor
    · rintro rfl
      exact .verbatim text ((hRest _).mp rfl)
    · intro h
      cases h with
      | verbatim _ hMore => rw [(hRest _).mpr hMore]
      | shielded hRule => cases hRule
      | decided hRule => cases hRule
  covered p node rest hRule hCovers ih front hFront q := by
    have hRest := ih (front ++ [node]) (by rw [along_concat, hFront, Protection.past_rule hRule])
    have hShielded : Shielded front := covers_along_iff.mp (by rw [hFront, hCovers])
    rw [purgeAll_rule hRule, if_pos hCovers]
    constructor
    · rintro rfl
      exact .shielded hRule hShielded ((hRest _).mp rfl)
    · intro h
      cases h with
      | verbatim => cases hRule
      | shielded _ _ hMore => rw [(hRest _).mpr hMore]
      | decided _ hOpen => exact absurd hShielded hOpen
  decided p node rest hRule hCovers hOne ih front hFront q := by
    have hRest := ih (front ++ [node]) (by
      rw [along_concat, hFront, Protection.past_rule hRule, Protection.afterRule_of_not_covers hCovers])
    have hOpen : ¬Shielded front := by
      rw [← covers_along_iff, hFront, hCovers]
      exact Bool.false_ne_true
    rw [purgeAll_rule hRule, hCovers, if_neg Bool.false_ne_true]
    constructor
    · rintro rfl
      exact .decided hRule hOpen ((hOne hRule _).mp rfl) ((hRest _).mp rfl)
    · intro h
      cases h with
      | verbatim => cases hRule
      | shielded _ hShielded => exact absurd hShielded hOpen
      | decided _ _ hOwn hMore => rw [(hOne hRule _).mpr hOwn, (hRest _).mpr hMore]

/-- A purge does to siblings, and to those inside of them, what the declarative reading says. -/
theorem purgeAll_iff_settled : purgeAll keeps {} nodes = q ↔ Settled keeps [] nodes q :=
  settled_cases.holdsAll {} nodes [] rfl q

theorem purge_iff_decided (hRule : node.isRule = true) : node.purge keeps = q ↔ Decided keeps node q :=
  settled_cases.holds node hRule q

/-! ## Rules in a row -/

theorem purged_append_assoc (a b c : Purged) : (a.append b).append c = a.append (b.append c) := by
  simp [Purged.append]

/-- A purge goes on behind the first siblings with the protection that they leave. -/
theorem purgeAll_append (p : Protection) (front rest : List Node) :
    purgeAll keeps p (front ++ rest) =
      (purgeAll keeps p front).append (purgeAll keeps (along p front) rest) := by
  induction front generalizing p with
  | nil => rfl
  | cons node front ih =>
    rw [List.cons_append]
    by_cases hRule : node.isRule = true
    · have hPast : along p (node :: front) = along p.afterRule front := by
        rw [← Protection.past_rule hRule]
        rfl
      rw [purgeAll_rule hRule, purgeAll_rule hRule, hPast]
      cases hCovers : p.covers with
      | true => rw [if_pos rfl, if_pos rfl, ih, purged_append_assoc]
      | false =>
        rw [if_neg Bool.false_ne_true, if_neg Bool.false_ne_true, ih, purged_append_assoc,
          Protection.afterRule_of_not_covers hCovers]
    · cases node with
      | verbatim text =>
        rw [purgeAll, purgeAll, ih, purged_append_assoc]
        rfl
      | _ => exact absurd rfl hRule

theorem purge_eq_keeping_or_decided (front rest : List Node) (hRule : node.isRule = true) :
    ∃ own, (Shielded front → own = .keeping node) ∧ (¬Shielded front → Decided keeps node own) ∧
      purgeAll keeps (along {} front) (node :: rest) =
        own.append (purgeAll keeps (along {} front).afterRule rest) := by
  rw [purgeAll_rule hRule]
  cases hCovers : (along {} front).covers with
  | true =>
    have hShielded : Shielded front := covers_along_iff.mp hCovers
    exact ⟨.keeping node, fun _ => rfl, fun hOpen => absurd hShielded hOpen, if_pos rfl⟩
  | false =>
    have hOpen : ¬Shielded front := by
      rw [← covers_along_iff, hCovers]
      exact Bool.false_ne_true
    refine ⟨node.purge keeps, fun hShielded => absurd hShielded hOpen,
      fun _ => (purge_iff_decided hRule).mp rfl, ?_⟩
    rw [if_neg Bool.false_ne_true, Protection.afterRule_of_not_covers hCovers]

/-- A purge does to siblings on every level what the comments among them say: a rule that they
shield stays as it is, with everything in it, and any other is decided about, a group by its
children alone. What becomes of a rule depends on the siblings in front only by whether they shield
it, and what becomes of the siblings, in front and behind, does not depend on the rule. -/
theorem purgeAll_follows_comments (keeps : String → Bool) (nodes : List Node) (q : Purged) :
    (purgeAll keeps {} nodes = q ↔ Settled keeps [] nodes q) ∧
      ∀ front rest, ∃ after, ∀ node, node.isRule = true → ∃ own,
        (Shielded front → own = .keeping node) ∧ (¬Shielded front → Decided keeps node own) ∧
          purgeAll keeps {} (front ++ node :: rest) =
            (purgeAll keeps {} front).append (own.append after) := by
  refine ⟨purgeAll_iff_settled, fun front rest => ?_⟩
  refine ⟨purgeAll keeps (along {} front).afterRule rest, fun node hRule => ?_⟩
  obtain ⟨own, hKept, hDecided, hOwn⟩ := purge_eq_keeping_or_decided front rest hRule
  exact ⟨own, hKept, hDecided, by rw [purgeAll_append, hOwn]⟩

end StyleSieve.Node
