import StyleSieve.Script.Tree

/-!
# The walk through a tree

The texts of a tree are found by a walk with a stack of the nodes that are still to be visited.
`Walk.round?` is one round of it, and `Walk.Run` a number of rounds with the nodes they visit.

* `Run.nodesAll_eq`: what was visited, and behind it what is below the stack, are the nodes that
  were below the stack before.
* `run_nodesAll`: the rounds come to an end.
* `harvest_in_document_order`: the walk visits each node once, in document order, and yields the
  texts of the tree, which are those that `ownTexts_string`, `ownTexts_name` and `ownTexts_template`
  tell for each kind of node.
-/

namespace StyleSieve.Script.Tree

variable {source : List Char}

/-! ## The texts of a node -/

section Own

variable {t : Tree}

/-- A string counts for what it holds, read with its escapes, or as it stands where that fails. -/
theorem ownTexts_string (h : t.kind = .string) :
    t.ownTexts source = [(cook false (.ofList (t.inside.slice source))).getD
      (.ofList (t.inside.slice source))] := by
  rw [ownTexts, h]
  rfl

theorem ownTexts_name (h : t.kind = .name) :
    t.ownTexts source = [.ofList (t.span.slice source)] := by
  rw [ownTexts, h]

/-- A template counts for each of its texts that is not empty, in their order. -/
theorem ownTexts_template (h : t.kind = .template) :
    t.ownTexts source = ((t.segments source).filter fun s => s ≠ []).map fun s =>
      (cook true (.ofList s)).getD (.ofList s) := by
  have hKept : (fun s : List Char => decide (s ≠ [])) = fun s => !s.isEmpty := by
    funext s
    cases s <;> rfl
  rw [ownTexts, h, hKept]
  rfl

theorem ownTexts_other (hString : t.kind ≠ .string) (hName : t.kind ≠ .name)
    (hTemplate : t.kind ≠ .template) : t.ownTexts source = [] := by
  unfold ownTexts
  split <;> first | contradiction | rfl

end Own

/-! ## Nodes in document order -/

mutual

/-- The nodes of a tree: itself, and then those of its children from left to right. -/
def nodes : Tree → List Tree
  | node k s cs => node k s cs :: nodesAll cs

/-- The nodes of trees side by side. -/
def nodesAll : List Tree → List Tree
  | [] => []
  | t :: ts => t.nodes ++ nodesAll ts

end

theorem nodes_eq (t : Tree) : t.nodes = t :: nodesAll t.children := by
  cases t
  rfl

theorem textsAll_eq_flatMap (ts : List Tree) : textsAll source ts = ts.flatMap (texts source) := by
  induction ts with
  | nil => rfl
  | cons t ts ih => rw [textsAll, List.flatMap_cons, ih]

theorem texts_eq (t : Tree) :
    t.texts source = t.ownTexts source ++ t.children.flatMap (texts source) := by
  cases t
  exact congrArg _ (textsAll_eq_flatMap _)

theorem nodesAll_append (ts us : List Tree) : nodesAll (ts ++ us) = nodesAll ts ++ nodesAll us := by
  induction ts with
  | nil => rfl
  | cons t ts ih => rw [List.cons_append, nodesAll, nodesAll, ih, List.append_assoc]

mutual

theorem texts_eq_flatMap_nodes : ∀ t : Tree, t.texts source = t.nodes.flatMap (ownTexts source)
  | node k s cs => by
    rw [texts, nodes, List.flatMap_cons, textsAll_eq_flatMap_nodesAll cs]

theorem textsAll_eq_flatMap_nodesAll :
    ∀ ts : List Tree, textsAll source ts = (nodesAll ts).flatMap (ownTexts source)
  | [] => rfl
  | t :: ts => by
    rw [textsAll, nodesAll, List.flatMap_append, texts_eq_flatMap_nodes t,
      textsAll_eq_flatMap_nodesAll ts]

end

/-! ## Rounds -/

/-- A walk on its way: the stack of nodes to visit, its top first, and the texts found so far. -/
structure Walk where
  pending : List Tree
  found : List String

namespace Walk

/-- One round of a walk. The node on top of the stack is taken from it and yields its texts, and its
children are put on the stack, the last of them first. -/
def round? (source : List Char) : Walk → Option (Tree × Walk)
  | ⟨[], _⟩ => none
  | ⟨t :: rest, found⟩ =>
    some (t, ⟨t.children.reverse.foldl (fun stack child => child :: stack) rest,
      found ++ t.ownTexts source⟩)

/-- Rounds of a walk one after the other, with the nodes that they visit. -/
inductive Run (source : List Char) : Walk → List Tree → Walk → Prop
  | stop (w : Walk) : Run source w [] w
  | round {w next last : Walk} {t : Tree} {visited : List Tree}
      (first : w.round? source = some (t, next)) (rest : Run source next visited last) :
      Run source w (t :: visited) last

theorem foldl_push (cs rest : List Tree) :
    cs.reverse.foldl (fun stack child => child :: stack) rest = cs ++ rest := by
  simp

variable {w next last : Walk} {t : Tree} {visited : List Tree}

theorem round?_cons (source : List Char) (t : Tree) (rest : List Tree) (found : List String) :
    round? source ⟨t :: rest, found⟩ =
      some (t, ⟨t.children ++ rest, found ++ t.ownTexts source⟩) := by
  rw [round?, foldl_push]

theorem eq_of_round? (h : w.round? source = some (t, next)) :
    ∃ rest, w.pending = t :: rest ∧ next = ⟨t.children ++ rest, w.found ++ t.ownTexts source⟩ := by
  obtain ⟨pending, found⟩ := w
  cases pending with
  | nil => cases h
  | cons first rest =>
    rw [round?_cons] at h
    cases h
    exact ⟨rest, rfl, rfl⟩

/-- A round takes the first of the nodes below the stack. -/
theorem nodesAll_of_round? (h : w.round? source = some (t, next)) :
    nodesAll w.pending = t :: nodesAll next.pending := by
  obtain ⟨rest, hPending, rfl⟩ := eq_of_round? h
  rw [hPending, nodesAll, nodes_eq, nodesAll_append, List.cons_append]

theorem found_of_round? (h : w.round? source = some (t, next)) :
    next.found = w.found ++ t.ownTexts source := by
  obtain ⟨rest, -, rfl⟩ := eq_of_round? h
  rfl

/-- What a walk yields in all does not change from round to round. -/
theorem harvestFrom_of_round? (h : w.round? source = some (t, next)) :
    next.found ++ harvestFrom source next.pending = w.found ++ harvestFrom source w.pending := by
  obtain ⟨rest, hPending, rfl⟩ := eq_of_round? h
  rw [hPending, harvestFrom, List.append_assoc]

/-! ## Runs -/

theorem Run.nodesAll_eq (h : Run source w visited last) :
    nodesAll w.pending = visited ++ nodesAll last.pending := by
  induction h with
  | stop w => rfl
  | round first rest ih => rw [nodesAll_of_round? first, ih, List.cons_append]

theorem Run.found_eq (h : Run source w visited last) :
    last.found = w.found ++ visited.flatMap (ownTexts source) := by
  induction h with
  | stop w => rw [List.flatMap_nil, List.append_nil]
  | round first rest ih =>
    rw [ih, found_of_round? first, List.flatMap_cons, List.append_assoc]

theorem Run.harvestFrom_eq (h : Run source w visited last) :
    last.found ++ harvestFrom source last.pending = w.found ++ harvestFrom source w.pending := by
  induction h with
  | stop w => rfl
  | round first rest ih => rw [ih, harvestFrom_of_round? first]

/-- The rounds end when all nodes below the stack have been visited. The induction is on these
nodes, of which each round leaves one less. -/
theorem run_nodesAll (source : List Char) (w : Walk) :
    Run source w (nodesAll w.pending) ⟨[], w.found ++ textsAll source w.pending⟩ := by
  suffices hRuns : ∀ below (w : Walk), nodesAll w.pending = below →
      ∃ found, Run source w below ⟨[], found⟩ by
    obtain ⟨found, hRun⟩ := hRuns _ w rfl
    rw [textsAll_eq_flatMap_nodesAll, ← hRun.found_eq]
    exact hRun
  intro below
  induction below with
  | nil =>
    rintro ⟨pending, found⟩ hBelow
    cases pending with
    | nil => exact ⟨found, .stop _⟩
    | cons t rest =>
      rw [nodesAll, nodes_eq] at hBelow
      cases hBelow
  | cons first below ih =>
    rintro ⟨pending, found⟩ hBelow
    cases pending with
    | nil => cases hBelow
    | cons t rest =>
      have hRound := round?_cons source t rest found
      obtain ⟨rfl, hRest⟩ := List.cons.inj ((nodesAll_of_round? hRound).symm.trans hBelow)
      obtain ⟨all, hRun⟩ := ih _ hRest
      exact ⟨all, .round hRound hRun⟩

end Walk

theorem harvestFrom_eq_textsAll (pending : List Tree) :
    harvestFrom source pending = textsAll source pending := by
  have hRun := (Walk.run_nodesAll source ⟨pending, []⟩).harvestFrom_eq
  rw [harvestFrom, List.append_nil, List.nil_append, List.nil_append] at hRun
  exact hRun.symm

/-- The walk through a tree comes to an end when it has visited each node once, in document order, and
has then found the texts of the tree, which are what is harvested. On its way it has visited the
first so many nodes and found their texts. The texts of a node are its own and then those of its
children; its own are what a string holds, what a name is, the texts of a template that are not empty,
and nothing for other nodes. -/
theorem harvest_in_document_order (source : List Char) (t : Tree) :
    t.harvest source = t.texts source ∧
    t.texts source = t.nodes.flatMap (ownTexts source) ∧
    (∀ n : Tree, n.texts source = n.ownTexts source ++ n.children.flatMap (texts source)) ∧
    (∀ n : Tree, n.kind = .string → n.ownTexts source =
      [(cook false (.ofList (n.inside.slice source))).getD (.ofList (n.inside.slice source))]) ∧
    (∀ n : Tree, n.kind = .name → n.ownTexts source = [.ofList (n.span.slice source)]) ∧
    (∀ n : Tree, n.kind = .template → n.ownTexts source =
      ((n.segments source).filter fun s => s ≠ []).map fun s =>
        (cook true (.ofList s)).getD (.ofList s)) ∧
    (∀ n : Tree, n.kind ≠ .string → n.kind ≠ .name → n.kind ≠ .template →
      n.ownTexts source = []) ∧
    Walk.Run source ⟨[t], []⟩ t.nodes ⟨[], t.texts source⟩ ∧
    ∀ visited last, Walk.Run source ⟨[t], []⟩ visited last →
      visited <+: t.nodes ∧ last.found = visited.flatMap (ownTexts source) ∧
      (last.round? source = none ↔ visited = t.nodes) := by
  have hNodes : nodesAll [t] = t.nodes := by
    rw [nodesAll, nodesAll, List.append_nil]
  have hTexts : textsAll source [t] = t.texts source := by
    rw [textsAll, textsAll, List.append_nil]
  have hRun := Walk.run_nodesAll source ⟨[t], []⟩
  rw [List.nil_append, hNodes, hTexts] at hRun
  refine ⟨(harvestFrom_eq_textsAll [t]).trans hTexts, texts_eq_flatMap_nodes t, texts_eq,
    fun _ => ownTexts_string, fun _ => ownTexts_name, fun _ => ownTexts_template,
    fun _ => ownTexts_other, hRun, ?_⟩
  intro visited last hPart
  have hSplit := hPart.nodesAll_eq
  rw [hNodes] at hSplit
  refine ⟨⟨_, hSplit.symm⟩, hPart.found_eq, ?_⟩
  obtain ⟨pending, found⟩ := last
  cases pending with
  | nil =>
    rw [nodesAll, List.append_nil] at hSplit
    exact iff_of_true rfl hSplit.symm
  | cons first rest =>
    rw [Walk.round?_cons]
    refine iff_of_false (by simp) fun hAll => ?_
    rw [hAll] at hSplit
    have hNone := List.self_eq_append_right.mp hSplit
    rw [nodesAll, nodes_eq] at hNone
    cases hNone

/-- A name in front of a template with a string in its substitution: the template yields the text on
either side, the second with its escape read, before the string is reached. -/
theorem harvest_in_document_order_template :
    let source := "x`a$\x7b'b'\x7d\\x63`".toList
    let quoted : Tree := .node .string ⟨5, 8⟩ []
    let template : Tree := .node .template ⟨1, 14⟩ [.node .substitution ⟨3, 9⟩ [quoted]]
    let t : Tree := .node .other ⟨0, 14⟩ [.node .name ⟨0, 1⟩ [], template]
    t.harvest source = ["x", "a", "c", "b"] ∧ template.ownTexts source = ["a", "c"] := by
  intro source quoted template t
  obtain ⟨hHarvest, -, -, -, -, hTemplate, -⟩ := harvest_in_document_order source t
  refine ⟨hHarvest.trans ?_, (hTemplate template rfl).trans ?_⟩
  · decide +kernel
  · decide +kernel

end StyleSieve.Script.Tree
