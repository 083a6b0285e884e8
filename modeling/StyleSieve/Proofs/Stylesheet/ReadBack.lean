import StyleSieve.Proofs.Purge.Exposed
import StyleSieve.Proofs.Stylesheet.Steady

/-!
# Reading nodes back

The text of nodes whose parts are read as they are written is read as these nodes again, except
that blanks in a row become one. Neither the text nor the selectors that a purge decides about
depend on how blanks are cut.

* `Alike`: nodes that differ in how blanks are cut.
* `readsNodes_of_spelledAll`: how nodes are read back up to the end of their block.
* `alike_nodes_read`: nodes are read back from their text.
-/

namespace StyleSieve

open Css Stylesheet Node

/-! ## Comments -/

namespace Css

theorem readComment_closed {text : List Char}
    (h : (readComment (text ++ ['*', '/'])).1 = text) (rest : List Char) :
    readComment (text ++ '*' :: '/' :: rest) = (text, text.length + 2) := by
  induction text with
  | nil => rfl
  | cons c text ih =>
    -- `c` does not close the comment, whatever comes behind its end
    have hOpen : ∀ rest more, c = '*' → text ++ '*' :: '/' :: rest = '/' :: more → False := by
      rintro rest more rfl hSlash
      cases text with
      | nil => cases hSlash
      | cons d text =>
        rw [(List.cons.inj hSlash).1] at h
        cases h
    rw [List.cons_append, readComment.eq_3 _ _ (hOpen [])] at h
    rw [List.cons_append, readComment.eq_3 _ _ (hOpen rest), ih (List.cons.inj h).2]
    rfl

theorem lexemes_comment [Surrogates] {text : List Char}
    (h : (readComment (text ++ ['*', '/'])).1 = text) (rest : List Char) :
    lexemes ((Lexeme.comment text).written ++ rest) = .comment text :: lexemes rest := by
  have hStep : step '/' ('*' :: (text ++ '*' :: '/' :: rest)) =
      ([.comment text], text.length + 3) := by
    have hSign : step '/' ('*' :: (text ++ '*' :: '/' :: rest)) =
        ([.comment (readComment (text ++ '*' :: '/' :: rest)).1],
          (readComment (text ++ '*' :: '/' :: rest)).2 + 1) := rfl
    rw [hSign, readComment_closed h]
  have hText : (Lexeme.comment text).written ++ rest =
      '/' :: '*' :: (text ++ '*' :: '/' :: rest) := by
    simp [Lexeme.written]
  rw [hText, lexemes_cons, hStep]
  simp

end Css

/-! ## Blanks -/

namespace Node

/-- Nodes that differ in how blanks are cut. -/
structure Alike (nodes others : List Node) : Prop where
  text : textAll nodes = textAll others
  exposed : ∀ p, exposedAll p nodes = exposedAll p others

variable {node : Node} {nodes others rest more : List Node}

theorem isBlankText_iff {s : List Char} :
    isBlankText s = true ↔ s ≠ [] ∧ s.all Css.isBlank = true := by
  simp [isBlankText]

theorem afterVerbatim_blank {text : String} (h : isBlankText text.toList = true)
    (p : Protection) : p.afterVerbatim text = p := by
  have hComment : (Node.verbatim text).isComment = false := by
    refine String.startsWith_string_eq_false_iff.mpr fun hPrefix => ?_
    have hSlash : '/' ∈ text.toList := hPrefix.subset List.mem_cons_self
    have hBlank := List.all_eq_true.mp (isBlankText_iff.mp h).2 '/' hSlash
    cases hBlank
  rw [Protection.afterVerbatim, hComment, if_neg Bool.false_ne_true]

theorem exposedAll_blank {text : String} (h : isBlankText text.toList = true) (p : Protection) :
    exposedAll p (.verbatim text :: rest) = exposedAll p rest := by
  rw [exposedAll, afterVerbatim_blank h]

namespace Alike

theorem refl (nodes : List Node) : Alike nodes nodes := ⟨rfl, fun _ => rfl⟩

theorem trans (h : Alike nodes others) (h' : Alike others rest) : Alike nodes rest :=
  ⟨h.text.trans h'.text, fun p => (h.exposed p).trans (h'.exposed p)⟩

theorem cons (node : Node) (h : Alike nodes others) : Alike (node :: nodes) (node :: others) where
  text := by rw [textAll, textAll, h.text]
  exposed p := by
    cases hRule : node.isRule with
    | true => rw [exposedAll_rule hRule, exposedAll_rule hRule, h.exposed, h.exposed]
    | false =>
      cases node with
      | verbatim text => rw [exposedAll, exposedAll, h.exposed]
      | _ => cases hRule

theorem group (keyword prelude : String) (hInner : Alike nodes others) (h : Alike rest more) :
    Alike (.group keyword prelude nodes :: rest) (.group keyword prelude others :: more) where
  text := by
    rw [textAll, textAll, h.text, Node.text, Node.text, hInner.text]
  exposed p := by
    rw [exposedAll_rule rfl, exposedAll_rule rfl, h.exposed, h.exposed, Node.exposed, Node.exposed,
      hInner.exposed]

/-- Two blanks in a row are alike one. -/
theorem blank {gap gap' : List Char} (hGap : isBlankText gap = true)
    (hGap' : isBlankText gap' = true)
    (h : Alike (.verbatim (String.ofList gap') :: nodes) others) :
    Alike (.verbatim (String.ofList (gap ++ gap')) :: nodes)
      (.verbatim (String.ofList gap) :: others) where
  text := by
    rw [textAll, textAll, ← h.text, textAll, Node.text, Node.text, Node.text, String.ofList_append,
      String.append_assoc]
  exposed p := by
    obtain ⟨hSome, hAll⟩ := isBlankText_iff.mp hGap
    have hBoth : isBlankText (gap ++ gap') = true :=
      isBlankText_iff.mpr ⟨List.append_ne_nil_of_left_ne_nil hSome _, by
        rw [List.all_append, hAll, (isBlankText_iff.mp hGap').2, Bool.and_self]⟩
    rw [exposedAll_blank (by rwa [String.toList_ofList]),
      exposedAll_blank (by rwa [String.toList_ofList]), ← h.exposed,
      exposedAll_blank (by rwa [String.toList_ofList])]

end Alike

end Node

/-! ## Reading nodes -/

namespace Stylesheet

/-- A text is read as a node, whatever comes behind it. -/
def ReadsNode [Surrogates] (node : Node) : Prop :=
  ∀ rest, ∃ ls, lexemes (node.text.toList ++ rest) = ls ++ lexemes rest ∧ balanced [] ls = true ∧
    ∀ outermost cs, Alike (gather outermost .none (formed ls ++ cs)).nodes
      (node :: (gather outermost .none cs).nodes)

/-- The end of a text or of a block. -/
def EndsBlock (next : List Char) : Prop := next = [] ∨ ∃ rest, next = '}' :: rest

/-- A text is read as nodes up to the end of the block that they stand in. -/
def ReadsNodes [Surrogates] (nodes : List Node) : Prop :=
  ∀ next, EndsBlock next → ∃ ls, lexemes ((Node.textAll nodes).toList ++ next) =
    ls ++ lexemes next ∧ balanced [] ls = true ∧
    ∀ outermost, Alike (gather outermost .none (formed ls)).nodes nodes

theorem readsNode_comment [Surrogates] {text : String} (h : isCommentText text.toList = true) :
    ReadsNode (.verbatim text) := by
  intro rest
  rw [isCommentText, Bool.and_eq_true, beq_iff_eq] at h
  generalize hText : (readComment (text.toList.drop 2)).1 = comment at h
  have hClosed : (readComment (comment ++ ['*', '/'])).1 = comment := by
    rw [h.1] at hText
    exact hText
  refine ⟨[.comment comment], ?_, rfl, fun outermost cs => ?_⟩
  · rw [Node.text, h.1, lexemes_comment hClosed]
    rfl
  · change Alike (.verbatim (String.ofList (Lexeme.comment comment).written) :: _) _
    rw [← h.1, String.ofList_toList]
    exact .refl _

theorem written_spelled {s : String} {ls : List Lexeme}
    (h : writtenAfter none (formed ls) = s.toList) : written (formed ls) = s := by
  rw [written, h, String.ofList_toList]

theorem readsNode_style [Surrogates] {rule : StyleRule} (h : rule.IsReadable) :
    ReadsNode (.style rule) := by
  intro rest
  obtain ⟨⟨ps, hPrelude, hSplit⟩, bs, hBlock⟩ := h
  refine ⟨ps ++ .opening '{' :: (bs ++ [.closing '}']), ?_, ?_, fun outermost cs => ?_⟩
  · have hText : (Node.style rule).text.toList ++ rest =
        rule.prelude.toList ++ '{' :: (rule.block.toList ++ '}' :: rest) := by
      simp [Node.text, StyleRule.text]
    rw [hText, lexemes_block hPrelude.spells.reads hBlock.reads]
    simp
  · exact balanced_headed_block hPrelude.spells.balanced hBlock.balanced rfl
  · have hRule : styleRule (formed ps) (formed bs) = rule := by
      rw [styleRule, written_spelled hPrelude.spells.written, hSplit,
        written_spelled hBlock.written]
    rw [formed_headed_block hPrelude.spells.balanced hBlock.balanced rfl, List.append_assoc,
      List.cons_append, gather_style hPrelude.starts hPrelude.flat, hRule]
    exact .refl _

section AtRule

variable {keyword prelude : String} {hs : List Lexeme}

theorem HeadsAtRule.balanced_head [Surrogates] (h : HeadsAtRule keyword prelude hs) :
    Css.balanced [] (.atName keyword.toList :: hs) = true := h.balanced

theorem HeadsAtRule.formed_head [Surrogates] (h : HeadsAtRule keyword prelude hs) :
    formed (.atName keyword.toList :: hs) = .lexeme 0 (.atName keyword.toList) :: formed hs :=
  formed_cons rfl h.balanced

theorem HeadsAtRule.plain_head [Surrogates] (h : HeadsAtRule keyword prelude hs) :
    ("@" ++ keyword ++ prelude).toList.all isPlain = true := by
  rw [String.toList_append, String.toList_append]
  exact h.plain

theorem HeadsAtRule.formed_block [Surrogates] (h : HeadsAtRule keyword prelude hs) {bs : List Lexeme}
    (hBlock : Css.balanced [] bs = true) (cs : List Component) :
    formed (.atName keyword.toList :: hs ++ .opening '{' :: (bs ++ [.closing '}'])) ++ cs =
      .lexeme 0 (.atName keyword.toList) :: formed hs ++ .block 0 .curly (formed bs) :: cs := by
  rw [formed_headed_block h.balanced_head hBlock rfl, h.formed_head, List.append_assoc]
  rfl

theorem readsNode_semicolon [Surrogates] (h : HeadsAtRule keyword prelude hs) :
    ReadsNode (.statement keyword prelude none) := by
  intro rest
  refine ⟨.atName keyword.toList :: hs ++ [.sign [';']], ?_, ?_, fun outermost cs => ?_⟩
  · have hText : (Node.statement keyword prelude none).text.toList ++ rest =
        '@' :: keyword.toList ++ prelude.toList ++ ';' :: rest := by
      simp [Node.text]
    rw [hText, h.reads.before_stop rfl]
    simp [stopLexeme]
  · exact (balanced_append h.balanced_head []).trans rfl
  · have hEnd : formed [.sign [';']] = [.lexeme 0 (.sign [';'])] := rfl
    rw [formed_append h.balanced_head rfl, h.formed_head, hEnd, List.append_assoc,
      List.singleton_append, gather_semicolon h.inside, written_spelled h.written,
      String.ofList_toList]
    exact .refl _

theorem readsNode_block [Surrogates] (h : HeadsAtRule keyword prelude hs)
    (hKeyword : isGroupKeyword keyword.toList = false) {block : String} {bs : List Lexeme}
    (hBlock : Spells block.toList bs) : ReadsNode (.statement keyword prelude (some block)) := by
  intro rest
  refine ⟨.atName keyword.toList :: hs ++ .opening '{' :: (bs ++ [.closing '}']), ?_, ?_,
    fun outermost cs => ?_⟩
  · have hText : (Node.statement keyword prelude (some block)).text.toList ++ rest =
        '@' :: keyword.toList ++ prelude.toList ++ '{' :: (block.toList ++ '}' :: rest) := by
      simp [Node.text]
    rw [hText, lexemes_block h.reads hBlock.reads]
    simp
  · exact balanced_headed_block h.balanced_head hBlock.balanced rfl
  · rw [h.formed_block hBlock.balanced, nodes_gather_statement h.inside hKeyword,
      written_spelled h.written, written_spelled hBlock.written, String.ofList_toList]
    exact .refl _

theorem readsNode_group [Surrogates] (h : HeadsAtRule keyword prelude hs)
    (hKeyword : isGroupKeyword keyword.toList = true) {children : List Node}
    (hChildren : ReadsNodes children) : ReadsNode (.group keyword prelude children) := by
  intro rest
  obtain ⟨bs, hRead, hBalanced, hAlike⟩ := hChildren ('}' :: rest) (Or.inr ⟨rest, rfl⟩)
  refine ⟨.atName keyword.toList :: hs ++ .opening '{' :: (bs ++ [.closing '}']), ?_, ?_,
    fun outermost cs => ?_⟩
  · have hText : (Node.group keyword prelude children).text.toList ++ rest =
        '@' :: keyword.toList ++ prelude.toList ++
          '{' :: ((Node.textAll children).toList ++ '}' :: rest) := by
      simp [Node.text]
    rw [hText, h.reads.before_stop rfl, hRead, lexemes_stop rfl]
    simp [stopLexeme]
  · exact balanced_headed_block h.balanced_head hBalanced rfl
  · rw [h.formed_block hBalanced, nodes_gather_group h.inside hKeyword, written_spelled h.written,
      String.ofList_toList]
    exact .group keyword prelude (hAlike false) (.refl _)

end AtRule

/-! ## Reading nodes in a row -/

theorem readsNodes_nil [Surrogates] : ReadsNodes [] :=
  fun _ _ => ⟨[], rfl, rfl, fun _ => .refl []⟩

theorem readsNodes_cons [Surrogates] {node : Node} {nodes : List Node} (h : ReadsNode node)
    (hRest : ReadsNodes nodes) : ReadsNodes (node :: nodes) := by
  intro next hNext
  obtain ⟨more, hMore, hMoreBalanced, hMoreAlike⟩ := hRest next hNext
  obtain ⟨ls, hRead, hBalanced, hAlike⟩ := h ((Node.textAll nodes).toList ++ next)
  refine ⟨ls ++ more, ?_, (balanced_append hBalanced []).trans hMoreBalanced,
    fun outermost => ?_⟩
  · rw [Node.textAll, String.toList_append, List.append_assoc, hRead, hMore, List.append_assoc]
  · rw [formed_append hBalanced hMoreBalanced]
    exact (hAlike outermost _).trans ((hMoreAlike outermost).cons node)

/-- A blank is read together with the blanks behind it. -/
theorem readsNodes_blank [Surrogates] {text : String} (h : isBlankText text.toList = true)
    {nodes : List Node}
    (hRest : ReadsNodes nodes) : ReadsNodes (.verbatim text :: nodes) := by
  intro next hNext
  obtain ⟨ls, hRead, hBalanced, hAlike⟩ := hRest next hNext
  obtain ⟨hSome, hAll⟩ := isBlankText_iff.mp h
  have hText : (Node.textAll (.verbatim text :: nodes)).toList ++ next =
      text.toList ++ ((Node.textAll nodes).toList ++ next) := by
    simp [Node.textAll, Node.text]
  generalize (Node.textAll nodes).toList ++ next = behind at hRead hText
  rw [hText, lexemes_gap hSome hAll]
  by_cases hGap : behind.takeWhile isBlank = []
  · have hBehind : behind.takeWhile isBlank ++ behind.dropWhile isBlank = behind :=
      List.takeWhile_append_dropWhile
    rw [hGap, List.nil_append] at hBehind
    rw [hGap, hBehind, hRead, List.append_nil]
    refine ⟨.blank text.toList :: ls, rfl, hBalanced, fun outermost => ?_⟩
    rw [formed_cons rfl hBalanced, gather_blank, nodes_push, String.ofList_toList]
    exact (hAlike outermost).cons _
  · obtain ⟨c, more, rfl, hBlank⟩ : ∃ c more, behind = c :: more ∧ isBlank c = true := by
      cases behind with
      | nil => exact absurd rfl hGap
      | cons c more =>
        cases hBlank : isBlank c with
        | true => exact ⟨c, more, rfl, hBlank⟩
        | false => exact absurd (List.takeWhile_cons_of_neg (by simp [hBlank])) hGap
    have hHead := lexemes_gap (List.cons_ne_nil c []) (by simp [hBlank]) more
    rw [List.singleton_append, List.singleton_append] at hHead
    rw [List.takeWhile_cons_of_pos hBlank, List.dropWhile_cons_of_pos hBlank]
    -- what is behind starts with a gap too, and both are read as one
    rw [hHead] at hRead
    have hGap' : isBlankText (c :: more.takeWhile isBlank) = true :=
      isBlankText_iff.mpr ⟨List.cons_ne_nil _ _, by
        rw [List.all_cons, hBlank, List.all_takeWhile, Bool.and_self]⟩
    cases ls with
    | nil =>
      -- the end of a block is no blank
      rcases hNext with rfl | ⟨rest, rfl⟩
      · rw [lexemes_nil] at hRead
        cases hRead
      · rw [lexemes_stop rfl] at hRead
        cases hRead
    | cons l ls =>
      obtain ⟨rfl, hRest⟩ := List.cons.inj hRead
      have hMore : balanced [] ls = true := hBalanced
      rw [hRest]
      refine ⟨.blank (text.toList ++ c :: more.takeWhile isBlank) :: ls, rfl, hBalanced,
        fun outermost => ?_⟩
      have hFirst := hAlike outermost
      rw [formed_cons rfl hMore, gather_blank, nodes_push] at hFirst
      rw [formed_cons rfl hMore, gather_blank, nodes_push]
      have hBoth := hFirst.blank h hGap'
      rwa [String.ofList_toList] at hBoth

/-- A node that only holds other nodes apart. -/
def isBlankNode : Node → Bool
  | .verbatim text => isBlankText text.toList
  | _ => false

mutual

theorem readsNode_of_spelled [Surrogates] : (node : Node) → node.Spelled StyleRule.IsReadable →
    isBlankNode node = false → ReadsNode node
  | .verbatim _, h, hBlank => readsNode_comment (h.resolve_left (Bool.eq_false_iff.mp hBlank))
  | .style _, h, _ => readsNode_style h
  | .statement _ _ none, h, _ => readsNode_semicolon h
  | .statement _ _ (some _), ⟨hHead, hKeyword, hBlock⟩, _ => readsNode_block hHead hKeyword hBlock
  | .group _ _ children, ⟨hHead, hKeyword, hChildren⟩, _ =>
    readsNode_group hHead hKeyword (readsNodes_of_spelledAll children hChildren)

/-- Nodes whose parts are read as they are written are read as they are written. -/
theorem readsNodes_of_spelledAll [Surrogates] : (nodes : List Node) →
    SpelledAll StyleRule.IsReadable nodes → ReadsNodes nodes
  | [], _ => readsNodes_nil
  | node :: rest, ⟨hNode, hRest⟩ => by
    have hReads := readsNode_of_spelled node hNode
    cases hBlank : isBlankNode node with
    | false => exact readsNodes_cons (hReads hBlank) (readsNodes_of_spelledAll rest hRest)
    | true =>
      cases node with
      | verbatim text => exact readsNodes_blank hBlank (readsNodes_of_spelledAll rest hRest)
      | _ => cases hBlank

end

theorem plain_block {head block : String} (h : head.toList.all isPlain = true)
    (hBlock : block.toList.all isPlain = true) :
    (head ++ "\x7b" ++ block ++ "\x7d").toList.all isPlain = true := by
  rw [String.toList_append, String.toList_append, String.toList_append, List.all_append,
    List.all_append, List.all_append, h, hBlock]
  rfl

mutual

theorem plain_of_spelled [Surrogates] : (node : Node) → node.Spelled StyleRule.IsReadable →
    node.text.toList.all isPlain = true
  | .verbatim text, h => by
    rcases h with hBlank | hComment
    · refine List.all_eq_true.mpr fun c hc => ?_
      obtain (rfl | rfl) | rfl : (c = ' ' ∨ c = '\n') ∨ c = '\t' := by
        simpa [Css.isBlank] using List.all_eq_true.mp (isBlankText_iff.mp hBlank).2 c hc
      all_goals rfl
    · exact (Bool.and_eq_true _ _ ▸ hComment).2
  | .style _, ⟨⟨_, hPrelude, _⟩, _, hBlock⟩ => plain_block hPrelude.spells.plain hBlock.plain
  | .statement keyword prelude none, h => by
    rw [Node.text, String.toList_append, List.all_append, h.plain_head]
    rfl
  | .statement _ _ (some _), ⟨hHead, _, hBlock⟩ => plain_block hHead.plain_head hBlock.plain
  | .group _ _ children, ⟨hHead, _, hChildren⟩ =>
    plain_block hHead.plain_head (plain_of_spelledAll children hChildren)

theorem plain_of_spelledAll [Surrogates] : (nodes : List Node) →
    SpelledAll StyleRule.IsReadable nodes → (Node.textAll nodes).toList.all isPlain = true
  | [], _ => rfl
  | node :: rest, ⟨hNode, hRest⟩ => by
    rw [Node.textAll, String.toList_append, List.all_append, plain_of_spelled node hNode,
      plain_of_spelledAll rest hRest]
    rfl

end

/-- Nodes whose parts are read as they are written are read back from their text. -/
theorem alike_nodes_read [Surrogates] {nodes : List Node} (h : SpelledAll StyleRule.IsReadable nodes) :
    Alike (read (Node.textAll nodes)).nodes nodes := by
  obtain ⟨ls, hRead, -, hAlike⟩ := readsNodes_of_spelledAll nodes h [] (Or.inl rfl)
  rw [List.append_nil, lexemes_nil, List.append_nil] at hRead
  rw [nodes_read, normalize_of_plain (plain_of_spelledAll nodes h), hRead]
  exact hAlike true

end Stylesheet

end StyleSieve
