import StyleSieve.Proofs.Selector.Loose
import StyleSieve.Proofs.Selector.Scan
import StyleSieve.Selector.Candidate

/-!
# Selector lists as candidates

A selector list is read piece by piece as a candidate, in step with its tokens. Only attribute
selectors can stand in the way.

* `acceptsFrom_iff`: behind any tokens, the rest is accepted if its attribute selectors are.
* `isCandidate_iff_of_parse`: when a selector list is a candidate.
-/

namespace StyleSieve.Selector

open Text

variable {atStart : Bool} {depth depth' n : Nat} {kind : PseudoKind} {token : Token}
  {tokens : List Token} {text rest cs name after head : List Char} {c : Char}
  {stack : List Waiting} {done result : List ComplexSelector} {terms : List Term}

/-! ## Pieces -/

namespace Piece

/-- The piece at the front of a text, and how many characters it takes. -/
def next (atStart : Bool) : List Char → Option (Piece × Nat)
  | [] => none
  | c :: rest =>
    (if atStart then nextSimple c rest else nextBehind c rest).map fun (p, n) => (p, n + 1)

/-- How many pseudo selectors are open behind a piece. -/
def depthBehind : Piece → Nat → Option Nat
  | simple, depth => some depth
  | joint, depth => some depth
  | opening, depth => some (depth + 1)
  | closing, 0 => none
  | closing, depth + 1 => some depth

/-- Whether a compound selector has to follow. -/
def opensCompound : Piece → Bool
  | opening => true
  | joint => true
  | _ => false

end Piece

theorem acceptsFrom_of_next {piece : Piece} (h : Piece.next atStart cs = some (piece, n))
    (hDepth : piece.depthBehind depth = some depth') :
    acceptsFrom depth atStart cs = acceptsFrom depth' piece.opensCompound (cs.drop n) := by
  cases cs with
  | nil => cases h
  | cons c rest =>
    obtain ⟨⟨p, m⟩, hNext, h⟩ := Option.map_eq_some_iff.mp h
    cases h
    rw [acceptsFrom, hNext]
    cases piece with
    | simple =>
      cases hDepth
      rfl
    | joint =>
      cases hDepth
      rfl
    | opening =>
      cases hDepth
      rfl
    | closing =>
      cases depth with
      | zero => cases hDepth
      | succ depth =>
        cases hDepth
        exact Bool.true_and _

theorem acceptsFrom_nil : acceptsFrom depth false [] = (depth == 0) := by
  rw [acceptsFrom]
  rfl

theorem acceptsFrom_of_next_none (h : Piece.next atStart (c :: rest) = none) :
    acceptsFrom depth atStart (c :: rest) = false := by
  rw [acceptsFrom, Option.map_eq_none_iff.mp h]

/-- What a token is as a piece. -/
def Token.piece : Token → Piece
  | .opening .. => .opening
  | .closing => .closing
  | .combinator => .joint
  | .comma => .joint
  | _ => .simple

theorem Token.opensCompound_piece (token : Token) :
    token.piece.opensCompound = token.opensCompound := by
  cases token <;> rfl

/-! ## From tokens to pieces -/

namespace Piece

theorem readFunction_congr {read read' : List Char → Option (List Char × List Char)}
    (h : read cs = read' cs) : readFunction read cs = readFunction read' cs := by
  unfold readFunction
  rw [h]

theorem readLooseName_eq (h : readName cs = some (name, after)) (hEnds : EndsLooseName after) :
    readLooseName cs = readName cs := by
  have hWhole := append_of_readName h
  rw [h]
  rw [← hWhole] at h ⊢
  exact readLooseName_of_readName h hEnds

theorem nextPseudo_of_takes (h : Token.TakesPseudo kind rest token text)
    (hRest : token.opensCompound = false → EndsLooseName rest) :
    nextPseudo (text ++ rest) = some (token.piece, text.length) := by
  unfold nextPseudo
  cases h with
  | opening hHead => simp [hHead, Token.piece]
  | function hOther hHead hArgument =>
    have hSame : readLooseName (text ++ rest) = readName (text ++ rest) := by
      unfold readFunction at hHead
      split at hHead
      · rename_i more hName
        refine readLooseName_eq hName fun c hc => ?_
        cases hc
        exact ⟨by decide, by decide +kernel⟩
      · cases hHead
    simp [hOther, readFunction_congr hSame, hHead, hArgument, Token.piece]
  | name hOther hBare hName =>
    have hSame := readLooseName_eq hName (hRest rfl)
    simp [hOther, readFunction_congr hSame, hBare, hSame, hName, Token.piece]

theorem next_simple (h : c ∈ ['.', '#', '[', ':']) (rest : List Char) :
    next atStart (c :: rest) = (nextSimple c rest).map fun (p, n) => (p, n + 1) := by
  simp only [List.mem_cons, List.not_mem_nil, or_false] at h
  cases atStart <;> rcases h with rfl | rfl | rfl | rfl <;> rfl

theorem nextSimple_name (h : c ∉ ['*', '.', '#', '[', ':']) (rest : List Char) :
    nextSimple c rest = (readLooseName (c :: rest)).map fun (name, _) => (simple, name.length - 1) := by
  unfold nextSimple
  split <;> simp_all

theorem next_tag (h : readName (name ++ rest) = some (name, rest)) (hEnds : EndsLooseName rest) :
    next true (name ++ rest) = some (simple, name.length) := by
  have hLoose := readLooseName_of_readName h hEnds
  obtain ⟨c, more, rfl⟩ := List.exists_cons_of_ne_nil (ne_nil_of_readName h)
  have hNot : c ∉ ['*', '.', '#', '[', ':'] := by
    intro hMem
    have hNone : ∀ c ∈ ['*', '.', '#', '[', ':'], ∀ rest, readName (c :: rest) = none := by
      simp only [List.forall_mem_cons]
      exact ⟨fun _ => rfl, fun _ => rfl, fun _ => rfl, fun _ => rfl, fun _ => rfl, by simp⟩
    rw [List.cons_append, hNone c hMem] at h
    cases h
  rw [List.cons_append] at hLoose ⊢
  simp [next, nextSimple_name hNot, hLoose]

theorem nextSimple_colon (hColon : ∀ more, cs ≠ ':' :: more) : nextSimple ':' cs = nextPseudo cs := by
  unfold nextSimple
  split <;> simp_all

/-- Behind a simple selector, spacing, combinators, commas and closing parentheses are the same for
both readings. -/
theorem next_of_joint (h : Token.next false cs = some (token, n))
    (hJoint : token.piece = .joint ∨ token.piece = .closing) :
    next false cs = some (token.piece, n) := by
  cases cs with
  | nil => cases h
  | cons c rest =>
    obtain ⟨⟨t, m⟩, hNext, h⟩ := Option.map_eq_some_iff.mp h
    cases h
    have hSimple : Token.nextSimple c rest ≠ some (token, m) := by
      intro hSome
      obtain ⟨text, rest', -, -, hTakes⟩ := Token.exists_takes_of_nextSimple true hSome
      cases hTakes with
      | ofElement hPseudo => cases hPseudo <;> simp [Token.piece] at hJoint
      | ofClass hColon hPseudo => cases hPseudo <;> simp [Token.piece] at hJoint
      | _ => simp [Token.piece] at hJoint
    have hBehind : nextBehind c rest = some (token.piece, m) := by
      rw [if_neg Bool.false_ne_true] at hNext
      unfold Token.nextBehind at hNext
      unfold nextBehind
      dsimp only at hNext ⊢
      generalize (c :: rest).drop ((c :: rest).takeWhile isSpacing).length = behind at hNext ⊢
      generalize (c :: rest).takeWhile isSpacing = gap at hNext ⊢
      split at hNext
      · cases hNext
        rfl
      · cases hNext
        rfl
      · cases hNext
        rfl
      · cases hNext
        rfl
      · cases hNext
        rfl
      · split at hNext
        · exact absurd hNext hSimple
        · cases hNext
          split <;> simp_all [Token.piece]
    rw [next, if_neg Bool.false_ne_true, hBehind]
    rfl

theorem nextSimple_dot (h : readLooseName cs = some (name, after)) :
    nextSimple '.' cs = some (simple, name.length) := by
  unfold nextSimple
  split <;> simp_all

theorem nextSimple_hash (h : readLooseName cs = some (name, after)) :
    nextSimple '#' cs = some (simple, name.length) := by
  unfold nextSimple
  split <;> simp_all

theorem nextSimple_bracket (cs : List Char) :
    nextSimple '[' cs = (readLooseAttribute cs).map fun after => (simple, cs.length - after.length) := by
  unfold nextSimple
  split <;> simp_all

theorem nextSimple_colons (cs : List Char) :
    nextSimple ':' (':' :: cs) = (nextPseudo cs).map fun (p, n) => (p, n + 1) := by
  unfold nextSimple
  split <;> simp_all

/-- Every token but an attribute selector is read as its piece, if a name that ends there also
ends for the loose reader. -/
theorem next_of_takes (h : Token.Takes rest atStart token text) (hOther : ∀ t, token ≠ .attribute t)
    (hRest : token.opensCompound = false → EndsLooseName rest) :
    next atStart (text ++ rest) = some (token.piece, text.length) := by
  have hNext := Token.next_of_takes h
  cases h with
  | universal => rfl
  | tag hName => exact next_tag hName (hRest rfl)
  | hasClass hName =>
    rw [List.cons_append, next_simple (by decide),
      nextSimple_dot (readLooseName_of_readName hName (hRest rfl))]
    rfl
  | hasId hName =>
    rw [List.cons_append, next_simple (by decide),
      nextSimple_hash (readLooseName_of_readName hName (hRest rfl))]
    rfl
  | @bracketed b inner hText => exact absurd rfl (hOther ('[' :: inner))
  | ofElement hPseudo =>
    rw [List.cons_append, List.cons_append, next_simple (by decide), nextSimple_colons,
      nextPseudo_of_takes hPseudo hRest]
    rfl
  | ofClass hColon hPseudo =>
    rw [List.cons_append, next_simple (by decide), nextSimple_colon hColon,
      nextPseudo_of_takes hPseudo hRest]
    rfl
  | closing => exact next_of_joint hNext (Or.inr rfl)
  | comma => exact next_of_joint hNext (Or.inl rfl)
  | joint => exact next_of_joint hNext (Or.inl rfl)
  | descendant => exact next_of_joint hNext (Or.inl rfl)

theorem next_bracketed (h : readLooseAttribute (text ++ rest) = some rest) :
    next atStart ('[' :: (text ++ rest)) = some (simple, ('[' :: text).length) := by
  rw [next_simple (by decide), nextSimple_bracket, h]
  simp

theorem next_bracketed_none (h : readLooseAttribute cs = none) :
    next atStart ('[' :: cs) = none := by
  rw [next_simple (by decide), nextSimple_bracket, h]
  rfl

end Piece

/-! ## From selector lists to candidates -/

theorem isCandidate_ofList (hSome : cs ≠ []) :
    isCandidate (String.ofList cs) = acceptsFrom 0 true cs := by
  simp [isCandidate, hSome]

theorem isCandidate_bracketed (h : readLooseAttribute text = some []) :
    isCandidate (String.ofList ('[' :: text)) = true := by
  have hNext : Piece.next true ('[' :: (text ++ [])) = some (.simple, ('[' :: text).length) :=
    Piece.next_bracketed (by rwa [List.append_nil])
  have hDepth : Piece.simple.depthBehind 0 = some 0 := rfl
  rw [List.append_nil] at hNext
  rw [isCandidate_ofList (by simp), acceptsFrom_of_next hNext hDepth, List.drop_length]
  exact acceptsFrom_nil

theorem isCandidate_bracketed_none (h : readLooseAttribute text = none) :
    isCandidate (String.ofList ('[' :: text)) = false := by
  rw [isCandidate_ofList (by simp), acceptsFrom_of_next_none (Piece.next_bracketed_none h)]

/-- What is gathered behind a token, and how many pseudo selectors are open there. -/
theorem exists_of_gather (h : gather stack done terms (token :: tokens) = .ok result) :
    ∃ stack' done' terms', gather stack' done' terms' tokens = .ok result ∧
      token.piece.depthBehind stack.length = some stack'.length := by
  match token, stack, h with
  | .attribute text, stack, h =>
    rw [gather] at h
    split at h
    · split at h
      · exact ⟨_, _, _, h, rfl⟩
      · cases h
    · cases h
  | .closing, top :: stack, h => exact ⟨_, _, _, h, rfl⟩
  | .tag _, stack, h => exact ⟨_, _, _, h, rfl⟩
  | .universal, stack, h => exact ⟨_, _, _, h, rfl⟩
  | .hasClass _, stack, h => exact ⟨_, _, _, h, rfl⟩
  | .hasId _, stack, h => exact ⟨_, _, _, h, rfl⟩
  | .pseudo _ _, stack, h => exact ⟨_, _, _, h, rfl⟩
  | .function _ _ _, stack, h => exact ⟨_, _, _, h, rfl⟩
  | .opening _ _, stack, h => exact ⟨_, _, _, h, rfl⟩
  | .combinator, stack, h => exact ⟨_, _, _, h, rfl⟩
  | .comma, stack, h => exact ⟨_, _, _, h, rfl⟩

/-- Behind a simple selector a loose name ends as well. -/
theorem endsLooseName_of_gather (h : gather stack done terms (Token.scan false cs) = .ok result) :
    EndsLooseName cs := by
  intro c hc
  cases cs with
  | nil => cases hc
  | cons d rest =>
    cases hc
    have hSigns : ∀ c ∈ Token.signs, c ≠ '\\' ∧ isLoosePart c = false := by decide +kernel
    refine hSigns c ?_
    by_contra hNot
    rw [Token.scan_of_next_none (Token.next_of_notMem_signs hNot rest)] at h
    cases h

/-- The attribute selectors among the tokens are candidates, each on its own. -/
def HasCandidates (tokens : List Token) : Prop :=
  ∀ text, .attribute text ∈ tokens → isCandidate (String.ofList text) = true

theorem hasCandidates_cons (hOther : ∀ t, token ≠ .attribute t) :
    HasCandidates (token :: tokens) ↔ HasCandidates tokens := by
  constructor
  · intro h text hMem
    exact h text (List.mem_cons_of_mem _ hMem)
  · intro h text hMem
    rcases List.mem_cons.mp hMem with hSame | hMem
    · exact absurd hSame.symm (hOther text)
    · exact h text hMem

theorem hasCandidates_attribute :
    HasCandidates (.attribute text :: tokens) ↔
      isCandidate (String.ofList text) = true ∧ HasCandidates tokens := by
  constructor
  · intro h
    exact ⟨h text List.mem_cons_self, fun t hMem => h t (List.mem_cons_of_mem _ hMem)⟩
  · rintro ⟨hFirst, hMore⟩ t hMem
    rcases List.mem_cons.mp hMem with hSame | hMem
    · cases hSame
      exact hFirst
    · exact hMore t hMem

/-- An attribute selector is accepted in front of other text if it is a candidate on its own. -/
theorem acceptsFrom_bracketed (h : readStrictAttribute (text ++ rest) = some rest) :
    acceptsFrom depth atStart ('[' :: (text ++ rest)) = true ↔
      isCandidate (String.ofList ('[' :: text)) = true ∧ acceptsFrom depth false rest = true := by
  have hDepth : Piece.simple.depthBehind depth = some depth := rfl
  rcases readLooseAttribute_cases h with hAll | ⟨-, hNone⟩
  · have hAlone := hAll []
    rw [List.append_nil] at hAlone
    have hDrop : ('[' :: (text ++ rest)).drop ('[' :: text).length = rest := by simp
    rw [acceptsFrom_of_next (Piece.next_bracketed (hAll rest)) hDepth, hDrop,
      isCandidate_bracketed hAlone, Piece.opensCompound]
    · simp
    · simp
    · simp
  · have hAlone := hNone []
    rw [List.append_nil] at hAlone
    rw [acceptsFrom_of_next_none (Piece.next_bracketed_none (hNone rest)),
      isCandidate_bracketed_none hAlone]
    simp

/-- What can be gathered is accepted if its attribute selectors are. -/
theorem acceptsFrom_iff (h : gather stack done terms (Token.scan atStart cs) = .ok result) :
    acceptsFrom stack.length atStart cs = true ↔ HasCandidates (Token.scan atStart cs) := by
  induction hLength : cs.length using Nat.strong_induction_on
    generalizing atStart cs stack done terms with
  | _ n ih =>
  cases hNext : Token.next atStart cs with
  | none =>
    cases cs with
    | nil =>
      rw [Token.scan_nil] at h ⊢
      cases atStart with
      | true => cases h
      | false =>
        cases stack with
        | cons top stack => cases h
        | nil =>
          rw [acceptsFrom_nil]
          refine iff_of_true rfl fun text hMem => ?_
          cases hMem
    | cons c rest =>
      rw [Token.scan_of_next_none hNext] at h
      cases h
  | some r =>
    obtain ⟨token, m⟩ := r
    obtain ⟨text, rest, rfl, rfl, hTakes⟩ := Token.exists_takes_of_next hNext
    rw [Token.scan_takes hTakes] at h ⊢
    obtain ⟨stack', done', terms', hRest, hDepth⟩ := exists_of_gather h
    have hShorter : rest.length < n := by
      have hSome := List.length_pos_iff.mpr hTakes.ne_nil
      rw [List.length_append] at hLength
      omega
    have hMore := ih rest.length hShorter hRest rfl
    by_cases hBracket : ∃ t, token = .attribute t
    · obtain ⟨t, rfl⟩ := hBracket
      cases hTakes with
      | bracketed hText =>
        have hSame : stack'.length = stack.length := (Option.some.inj hDepth).symm
        rw [List.cons_append, acceptsFrom_bracketed hText, hasCandidates_attribute, ← hSame]
        exact and_congr_right fun _ => hMore
      | ofElement hPseudo => cases hPseudo
      | ofClass hColon hPseudo => cases hPseudo
    · have hOther : ∀ t, token ≠ .attribute t := fun t hSame => hBracket ⟨t, hSame⟩
      have hPiece := Piece.next_of_takes hTakes hOther fun hOpens =>
        endsLooseName_of_gather (hOpens ▸ hRest)
      rw [acceptsFrom_of_next hPiece hDepth, List.drop_left, Token.opensCompound_piece, hMore,
        hasCandidates_cons hOther]

/-- An attribute selector that is no candidate has a blank beyond ASCII. -/
theorem hasBlank_of_not_isCandidate (hMem : .attribute text ∈ Token.scan atStart cs)
    (hNot : isCandidate (String.ofList text) = false) : HasBlank text := by
  obtain ⟨b, text', rest, hTakes⟩ := Token.exists_takes_of_mem hMem (by simp)
  cases hTakes with
  | bracketed hText =>
    rcases readLooseAttribute_cases hText with hAll | ⟨⟨c, hc, hBoth⟩, -⟩
    · have hAlone := hAll []
      rw [List.append_nil] at hAlone
      rw [isCandidate_bracketed hAlone] at hNot
      cases hNot
    · exact ⟨c, List.mem_cons_of_mem _ hc, hBoth⟩
  | ofElement hPseudo => cases hPseudo
  | ofClass hColon hPseudo => cases hPseudo

theorem parseCandidate_iff {s : String} : parseCandidate s = .ok () ↔ isCandidate s = true := by
  unfold parseCandidate isCandidate
  cases s.isEmpty with
  | true => simp
  | false => cases acceptsFrom 0 true s.toList <;> simp

/-- A selector list is a candidate exactly if each of its attribute selectors is one on its own, and
only a blank beyond ASCII can keep an attribute selector from being one. -/
theorem isCandidate_iff_of_parse {s : String} {selectors : List ComplexSelector}
    (h : parse s = .ok selectors) :
    (parseCandidate s = .ok () ↔ isCandidate s = true) ∧
      (isCandidate s = true ↔ ∀ text, .attribute text ∈ Token.scan true s.toList →
        isCandidate (String.ofList text) = true) ∧
      ∀ text, .attribute text ∈ Token.scan true s.toList → isCandidate (String.ofList text) = false →
        ∃ c ∈ text, isBlank c = true ∧ isBeyondAscii c = true := by
  unfold parse at h
  split at h
  · cases h
  · rename_i hSome
    refine ⟨parseCandidate_iff, ?_, fun text hMem hNot => hasBlank_of_not_isCandidate hMem hNot⟩
    rw [isCandidate, (by simpa using hSome : s.isEmpty = false), Bool.not_false, Bool.true_and]
    exact acceptsFrom_iff h

/-- With a blank in a string the selector list is a candidate. -/
theorem isCandidate_of_parse_quoted :
    parse "[a=\"x\u00a0\"]" = .ok [[.attribute "a" (some (.equals, "x\u00a0"))]] ∧
      isCandidate "[a=\"x\u00a0\"]" = true := by
  have hParse : parse "[a=\"x\u00a0\"]" = .ok [[.attribute "a" (some (.equals, "x\u00a0"))]] := by
    decide +kernel
  obtain ⟨-, hIff, -⟩ := isCandidate_iff_of_parse hParse
  refine ⟨hParse, hIff.mpr fun text hMem => ?_⟩
  have hScan : Token.scan true "[a=\"x\u00a0\"]".toList =
      [.attribute "[a=\"x\u00a0\"]".toList] := by
    have hNext : Token.next true "[a=\"x\u00a0\"]".toList =
        some (.attribute "[a=\"x\u00a0\"]".toList, 8) := by
      rfl
    rw [Token.scan_of_next hNext]
    exact congrArg _ (Token.scan_nil false)
  rw [hScan] at hMem
  cases List.mem_singleton.mp hMem
  decide +kernel

/-- Without quotes the same blank keeps it from being one. -/
theorem not_isCandidate_of_parse :
    parse "[a=x\u00a0]" = .ok [[.attribute "a" (some (.equals, "x"))]] ∧
      parseCandidate "[a=x\u00a0]" = .error .invalid ∧ isCandidate "[a=x\u00a0]" = false := by
  decide +kernel

end StyleSieve.Selector
