import StyleSieve.Proofs.Purge.Exposed

/-!
# Protected rules

The rules of a style sheet in document order, each with whether a comment protects it. A rule is
protected if a comment between it and the nearest rule in front asks for that, if the nearest
comment in front that opens or closes a range opens one, or if it lies inside of a protected
group.

* `covers_behind`: the protection that a purge keeps track of is the one of these comments.
* `map_rule_occurrencesAll`: the occurrences of rules are all the rules there are.
* `isProtected_of_sheltered`: every rule inside of a protected group is protected.
-/

namespace StyleSieve

open Node Text

/-! ## Comments in front of a rule -/

/-- The words by which a comment gives an order. -/
def Directive.words : Directive → String
  | ignoreNext => "purgecss ignore"
  | startIgnoring => "purgecss start ignore"
  | endIgnoring => "purgecss end ignore"

theorem Directive.ofComment?_eq_some_iff {text : List Char} {d : Directive} :
    Directive.ofComment? text = some d ↔
      lowerChars (trimChars (text.drop 2).dropLast.dropLast) = d.words.toList := by
  have hWords : ∀ cs : List Char, ∀ s : String, String.ofList cs = s ↔ cs = s.toList := by
    intro cs s
    rw [← String.toList_inj, String.toList_ofList]
  unfold Directive.ofComment?
  simp only [beq_iff_eq, hWords]
  generalize lowerChars (trimChars (text.drop 2).dropLast.dropLast) = cs
  split
  · rename_i h
    subst h
    cases d <;> simp [words]
  · split
    · rename_i h
      subst h
      cases d <;> simp [words]
    · split
      · rename_i h
        subst h
        cases d <;> simp [words]
      · cases d <;> simp_all [words]

namespace Node

/-- The order that a node gives. -/
def directive? : Node → Option Directive
  | verbatim text =>
    if (verbatim text).isComment then Directive.ofComment? text.toList else none
  | _ => none

/-- Whether the siblings in front of a rule protect it, the nearest of them being the first. -/
def shields (front : List Node) : Bool :=
  (front.takeWhile fun node => !node.isRule).any (fun node => node.directive? == some .ignoreNext)
    || (front.filterMap directive?).find? (· != .ignoreNext) == some .startIgnoring

end Node

namespace Protection

/-- The protection behind a node. -/
def past (p : Protection) (node : Node) : Protection :=
  match node with
  | .verbatim text => p.afterVerbatim text
  | _ => p.afterRule

/-- The protection behind siblings, the nearest of them being the first. -/
def behind : List Node → Protection
  | [] => {}
  | node :: front => (behind front).past node

theorem past_rule {p : Protection} {node : Node} (h : node.isRule = true) :
    p.past node = p.afterRule := by
  cases node with
  | verbatim text => cases h
  | _ => rfl

theorem afterRule_of_not_covers {p : Protection} (h : p.covers = false) : p.afterRule = p := by
  obtain ⟨-, hNext⟩ := Bool.or_eq_false_iff.mp h
  cases p
  cases hNext
  rfl

theorem past_verbatim (p : Protection) (text : String) :
    p.past (.verbatim text) = (directive? (.verbatim text)).elim p p.after := by
  show (if (Node.verbatim text).isComment then _ else p) =
    (if (Node.verbatim text).isComment then _ else none).elim p p.after
  by_cases hComment : (Node.verbatim text).isComment = true
  · rw [if_pos hComment, if_pos hComment]
    cases Directive.ofComment? text.toList <;> rfl
  · rw [if_neg hComment, if_neg hComment]
    rfl

theorem next_behind (front : List Node) :
    (behind front).next =
      (front.takeWhile fun node => !node.isRule).any
        fun node => node.directive? == some .ignoreNext := by
  induction front with
  | nil => rfl
  | cons node front ih =>
    cases node with
    | verbatim text =>
      show ((behind front).past (.verbatim text)).next = _
      rw [past_verbatim, List.takeWhile_cons_of_pos rfl, List.any_cons, ← ih]
      cases hDirective : directive? (.verbatim text) with
      | none => rfl
      | some d => cases d <;> rfl
    | _ => rfl

theorem ignoring_behind (front : List Node) :
    (behind front).ignoring =
      ((front.filterMap directive?).find? (· != .ignoreNext) == some .startIgnoring) := by
  induction front with
  | nil => rfl
  | cons node front ih =>
    cases node with
    | verbatim text =>
      show ((behind front).past (.verbatim text)).ignoring = _
      rw [past_verbatim, List.filterMap_cons]
      cases hDirective : directive? (.verbatim text) with
      | none => exact ih
      | some d =>
        cases d with
        | ignoreNext => exact ih
        | _ => rfl
    | _ => exact ih

/-- The protection behind siblings covers the next rule exactly if the comments among them
protect it. -/
theorem covers_behind (front : List Node) : (behind front).covers = shields front := by
  unfold covers shields
  rw [next_behind, ignoring_behind, Bool.or_comm]

end Protection

/-! ## Rules in document order -/

/-- A rule where it stands. -/
structure Occurrence where
  rule : Node
  isProtected : Bool

namespace Node

mutual

/-- The rules that a node consists of. -/
def rules : Node → List Node
  | .verbatim _ => []
  | .style rule => [.style rule]
  | .statement keyword prelude block => [.statement keyword prelude block]
  | .group keyword prelude children => .group keyword prelude children :: rulesAll children

/-- The rules of siblings and everything in them, in document order. -/
def rulesAll : List Node → List Node
  | [] => []
  | node :: rest => node.rules ++ rulesAll rest

end

mutual

/-- The rules that a node consists of, where the node itself is protected or not. -/
def occurrences (sheltered : Bool) : Node → List Occurrence
  | .verbatim _ => []
  | .style rule => [⟨.style rule, sheltered⟩]
  | .statement keyword prelude block => [⟨.statement keyword prelude block, sheltered⟩]
  | .group keyword prelude children =>
    ⟨.group keyword prelude children, sheltered⟩ :: occurrencesAll sheltered [] children

/-- The rules of siblings behind those in front, inside of a protected group or not. -/
def occurrencesAll (sheltered : Bool) (front : List Node) : List Node → List Occurrence
  | [] => []
  | node :: rest =>
    node.occurrences (sheltered || shields front) ++ occurrencesAll sheltered (node :: front) rest

end

mutual

theorem map_rule_occurrences (sheltered : Bool) (node : Node) :
    (node.occurrences sheltered).map Occurrence.rule = node.rules :=
  match node with
  | .verbatim _ => rfl
  | .style _ => rfl
  | .statement _ _ _ => rfl
  | .group keyword prelude children =>
    congrArg (Node.group keyword prelude children :: ·) (map_rule_occurrencesAll sheltered [] children)

theorem map_rule_occurrencesAll (sheltered : Bool) (front nodes : List Node) :
    (occurrencesAll sheltered front nodes).map Occurrence.rule = rulesAll nodes :=
  match nodes with
  | [] => rfl
  | node :: rest => by
    rw [occurrencesAll, rulesAll, List.map_append, map_rule_occurrences,
      map_rule_occurrencesAll sheltered (node :: front) rest]

end

mutual

theorem isProtected_of_mem_occurrences (node : Node) :
    ∀ o ∈ node.occurrences true, o.isProtected = true := by
  intro o ho
  match node with
  | .verbatim _ => cases ho
  | .style _ => rw [List.mem_singleton.mp ho]
  | .statement _ _ _ => rw [List.mem_singleton.mp ho]
  | .group keyword prelude children =>
    rcases List.mem_cons.mp ho with rfl | ho
    · rfl
    · exact isProtected_of_sheltered [] children o ho

/-- Every rule inside of a protected group is protected. -/
theorem isProtected_of_sheltered (front nodes : List Node) :
    ∀ o ∈ occurrencesAll true front nodes, o.isProtected = true := by
  intro o ho
  match nodes with
  | [] => cases ho
  | node :: rest =>
    rcases List.mem_append.mp ho with ho | ho
    · exact isProtected_of_mem_occurrences node o ho
    · exact isProtected_of_sheltered (node :: front) rest o ho

end

theorem rulesAll_append (nodes rest : List Node) :
    rulesAll (nodes ++ rest) = rulesAll nodes ++ rulesAll rest := by
  induction nodes with
  | nil => rfl
  | cons node more ih => rw [List.cons_append, rulesAll, rulesAll, ih, List.append_assoc]

theorem rulesAll_of_no_rule {nodes : List Node} (h : nodes.any isRule = false) :
    rulesAll nodes = [] := by
  induction nodes with
  | nil => rfl
  | cons node rest ih =>
    obtain ⟨hNode, hRest⟩ := Bool.or_eq_false_iff.mp h
    cases node with
    | verbatim text => exact ih hRest
    | _ => cases hNode

end Node

end StyleSieve
