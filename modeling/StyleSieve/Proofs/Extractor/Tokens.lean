import Mathlib.Data.List.DropRight
import StyleSieve.Extractor

/-!
# Tokens

* `mem_dedup`: taking each token once loses none and adds none.
* `tokensBetween_eq_splitOnP`: the tokens between breaks are the pieces of the text, without
  the colons at their ends.
* `mem_defaultTokens`: a plain name that stands between breaks is a token.
* `defaultTokens_eq_cutAt`: the tokens of a text are those of two splits, each of them once.
-/

namespace StyleSieve

open Text

variable {α : Type} [BEq α] [LawfulBEq α]

theorem mem_dedupFrom {seen xs : List α} {x : α} : x ∈ dedupFrom seen xs ↔ x ∈ xs ∧ x ∉ seen := by
  induction xs generalizing seen with
  | nil => simp [dedupFrom]
  | cons y rest ih =>
    unfold dedupFrom
    split
    · rename_i hSeen
      have hSeen : y ∈ seen := List.contains_iff_mem.mp hSeen
      rw [ih]
      constructor
      · rintro ⟨hx, hNew⟩
        exact ⟨List.mem_cons_of_mem _ hx, hNew⟩
      · rintro ⟨hx, hNew⟩
        rcases List.mem_cons.mp hx with rfl | hx
        · exact absurd hSeen hNew
        · exact ⟨hx, hNew⟩
    · rename_i hNew
      have hNew : y ∉ seen := fun h => hNew (List.contains_iff_mem.mpr h)
      rw [List.mem_cons, ih, List.mem_cons, List.mem_cons, not_or]
      constructor
      · rintro (rfl | ⟨hx, -, hOld⟩)
        · exact ⟨Or.inl rfl, hNew⟩
        · exact ⟨Or.inr hx, hOld⟩
      · rintro ⟨rfl | hx, hOld⟩
        · exact Or.inl rfl
        · by_cases hSame : x = y
          · exact Or.inl hSame
          · exact Or.inr ⟨hx, hSame, hOld⟩

@[simp] theorem mem_dedup {xs : List α} {x : α} : x ∈ dedup xs ↔ x ∈ xs := by
  rw [dedup, mem_dedupFrom]
  simp

theorem nodup_dedupFrom (seen xs : List α) : (dedupFrom seen xs).Nodup := by
  induction xs generalizing seen with
  | nil => exact List.nodup_nil
  | cons y rest ih =>
    unfold dedupFrom
    split
    · exact ih seen
    · refine List.nodup_cons.mpr ⟨fun h => ?_, ih _⟩
      exact (mem_dedupFrom.mp h).2 List.mem_cons_self

theorem nodup_dedup (xs : List α) : (dedup xs).Nodup := nodup_dedupFrom [] xs

theorem dedupFrom_eq_eraseDups (seen xs : List α) :
    dedupFrom seen xs = (xs.filter fun x => !seen.contains x).eraseDups := by
  induction xs generalizing seen with
  | nil => rfl
  | cons y rest ih =>
    unfold dedupFrom
    split
    · rename_i hSeen
      rw [ih, List.filter_cons_of_neg (by simpa using hSeen)]
    · rename_i hNew
      have hLater : (rest.filter fun x => !(y :: seen).contains x) =
          (rest.filter fun x => !seen.contains x).filter fun x => !x == y := by
        rw [List.filter_filter]
        refine List.filter_congr fun x _ => ?_
        rw [List.contains_cons, Bool.not_or]
      rw [ih, List.filter_cons_of_pos (by simpa using hNew), List.eraseDups_cons, hLater]

/-- Of equal elements the first is kept. -/
theorem dedup_eq_eraseDups (xs : List α) : dedup xs = xs.eraseDups := by
  rw [dedup, dedupFrom_eq_eraseDups]
  simp

/-! ## Tokens between breaks -/

section Tokens

variable {isBreak : Char → Bool} {cs token after : List Char}

/-- A piece without the colons at its end. -/
def withoutColons (piece : List Char) : List Char := piece.rdropWhile (· == ':')

theorem withoutColons_cons (c : Char) (piece : List Char) :
    withoutColons (c :: piece) =
      if withoutColons piece = [] then (if c == ':' then [] else [c])
      else c :: withoutColons piece := by
  unfold withoutColons List.rdropWhile
  rw [List.reverse_cons, List.dropWhile_append]
  cases hDrop : piece.reverse.dropWhile (· == ':') with
  | nil =>
    simp only [List.isEmpty_nil, if_true, List.reverse_nil, List.dropWhile_cons]
    cases c == ':' <;> rfl
  | cons d rest => simp

/-- A token is the piece in front of the next break, without the colons at its end. -/
theorem tokenAt?_eq (isBreak : Char → Bool) (cs : List Char) :
    tokenAt? (fun c => !isBreak c) (fun c => !isBreak c && c != ':') cs =
      let token := withoutColons (cs.takeWhile fun c => !isBreak c)
      if token = [] then none else some (token, cs.drop token.length) := by
  induction cs with
  | nil => rfl
  | cons c rest ih =>
    unfold tokenAt?
    rw [ih, List.takeWhile_cons]
    cases hBreak : isBreak c with
    | true => rfl
    | false =>
      dsimp only
      rw [Bool.not_false, if_pos rfl, if_pos rfl, withoutColons_cons]
      by_cases hNone : withoutColons (rest.takeWhile fun c => !isBreak c) = []
      · rw [if_pos hNone, if_pos hNone]
        cases hColon : c == ':' <;> simp [bne, hColon]
      · rw [if_neg hNone, if_neg hNone]
        rfl

/-- A token consists of characters that may stand in it. -/
theorem of_mem_tokenAt? {inside last : Char → Bool} (h : tokenAt? inside last cs = some (token, after)) :
    ∀ c ∈ token, inside c = true ∨ last c = true := by
  induction cs generalizing token after with
  | nil => cases h
  | cons c rest ih =>
    have hLone : last c = true → ∀ d ∈ [c], inside d = true ∨ last d = true := by
      intro hLast d hd
      exact Or.inr (List.mem_singleton.mp hd ▸ hLast)
    unfold tokenAt? at h
    split at h
    · rename_i hInside
      split at h
      · rename_i more behind hMore
        cases h
        intro d hd
        rcases List.mem_cons.mp hd with rfl | hd
        · exact Or.inl hInside
        · exact ih hMore d hd
      · split at h
        · rename_i hLast
          cases h
          exact hLone hLast
        · cases h
    · split at h
      · rename_i hLast
        cases h
        exact hLone hLast
      · cases h

theorem tokens_cons (inside last : Char → Bool) (c : Char) (rest : List Char) :
    tokens inside last (c :: rest) =
      match tokenAt? inside last (c :: rest) with
      | some (token, after) => token :: tokens inside last after
      | none => tokens inside last rest := by
  rw [tokens]
  split
  · rename_i h
    simp only [h]
  · rename_i h
    simp only [h]

theorem of_mem_tokens {inside last : Char → Bool} (h : token ∈ tokens inside last cs) :
    ∀ c ∈ token, inside c = true ∨ last c = true := by
  induction hLength : cs.length using Nat.strongRecOn generalizing cs with
  | ind n ih =>
    subst hLength
    cases cs with
    | nil => simp [tokens] at h
    | cons c rest =>
      rw [tokens_cons] at h
      split at h
      · rename_i first behind hFirst
        rcases List.mem_cons.mp h with rfl | h
        · exact of_mem_tokenAt? hFirst
        · exact ih _ (tokenAt?_length hFirst) h rfl
      · exact ih _ (by simp) h rfl

/-- There is no break in a token. -/
theorem not_break_of_mem_tokensBetween (h : token ∈ tokensBetween isBreak cs) :
    ∀ c ∈ token, isBreak c = false := by
  intro c hc
  rcases of_mem_tokens h c hc with hInside | hLast
  · simpa using hInside
  · simpa using (Bool.and_eq_true_iff.mp hLast).1

theorem splitOnP_eq_cons_takeWhile (isBreak : Char → Bool) (cs : List Char) :
    ∃ more, cs.splitOnP isBreak = (cs.takeWhile fun c => !isBreak c) :: more := by
  induction cs with
  | nil => exact ⟨[], rfl⟩
  | cons c rest ih =>
    obtain ⟨more, hMore⟩ := ih
    rw [List.splitOnP_cons_eq_if_modifyHead, hMore, List.takeWhile_cons]
    cases isBreak c with
    | true => exact ⟨_, rfl⟩
    | false => exact ⟨more, rfl⟩

theorem splitOnP_append_of_forall (h : ∀ c ∈ token, isBreak c = false) :
    (token ++ after).splitOnP isBreak = (after.splitOnP isBreak).modifyHead (token ++ ·) := by
  induction token with
  | nil =>
    obtain ⟨first, more, hSplit⟩ := List.exists_cons_of_ne_nil (List.splitOnP_ne_nil isBreak after)
    rw [List.nil_append, hSplit]
    rfl
  | cons c rest ih =>
    rw [List.cons_append, List.splitOnP_cons_eq_if_modifyHead, h c List.mem_cons_self,
      if_neg Bool.false_ne_true, ih fun x hx => h x (List.mem_cons_of_mem _ hx)]
    obtain ⟨first, more, hSplit⟩ := List.exists_cons_of_ne_nil (List.splitOnP_ne_nil isBreak after)
    rw [hSplit]
    rfl

/-- Pieces without the colons at their ends, as far as anything is left. -/
def withoutColonsAll (pieces : List (List Char)) : List (List Char) :=
  (pieces.map withoutColons).filter fun t => !t.isEmpty

theorem withoutColonsAll_cons_nil {piece : List Char} (h : withoutColons piece = [])
    (more : List (List Char)) : withoutColonsAll (piece :: more) = withoutColonsAll more := by
  simp [withoutColonsAll, h]

theorem withoutColonsAll_cons {piece : List Char} (h : withoutColons piece ≠ [])
    (more : List (List Char)) :
    withoutColonsAll (piece :: more) = withoutColons piece :: withoutColonsAll more := by
  simp [withoutColonsAll, h]

/-- Where a piece ends, so does what is left of it when its beginning is taken away. -/
theorem splitOnP_append_of_splitOnP_append {first second tail : List Char}
    {more : List (List Char)} (hFirst : ∀ c ∈ first ++ second, isBreak c = false)
    (h : (first ++ second ++ tail).splitOnP isBreak = (first ++ second) :: more) :
    (second ++ tail).splitOnP isBreak = second :: more := by
  rw [splitOnP_append_of_forall hFirst] at h
  rw [splitOnP_append_of_forall fun c hc => hFirst c (List.mem_append_right _ hc)]
  obtain ⟨head, rest, hTail⟩ := List.exists_cons_of_ne_nil (List.splitOnP_ne_nil isBreak tail)
  rw [hTail, List.modifyHead_cons, List.cons.injEq] at h
  rw [hTail, List.modifyHead_cons, h.2, List.append_right_eq_self.mp h.1, List.append_nil]

theorem withoutColons_rtakeWhile (piece : List Char) :
    withoutColons (piece.rtakeWhile (· == ':')) = [] :=
  List.rdropWhile_eq_nil_iff.mpr fun _ hx => List.mem_rtakeWhile_imp (p := (· == ':')) hx

/-- Behind the token of a piece come the same tokens as behind the piece. -/
theorem withoutColonsAll_splitOnP {run tail : List Char} {more : List (List Char)}
    (hRun : ∀ c ∈ run, isBreak c = false)
    (h : (run ++ tail).splitOnP isBreak = run :: more) :
    withoutColonsAll (((run ++ tail).drop (withoutColons run).length).splitOnP isBreak) =
      withoutColonsAll more := by
  have hParts : withoutColons run ++ run.rtakeWhile (· == ':') = run :=
    List.rdropWhile_append_rtakeWhile
  have hAfter : (run ++ tail).drop (withoutColons run).length =
      run.rtakeWhile (· == ':') ++ tail := by
    conv_lhs => rw [← hParts]
    rw [List.append_assoc, List.drop_append, hParts]
    simp
  rw [← hParts] at hRun h
  rw [hAfter, splitOnP_append_of_splitOnP_append hRun h,
    withoutColonsAll_cons_nil (withoutColons_rtakeWhile run)]

/-- The tokens are the pieces between breaks, without the colons at their ends. -/
theorem tokensBetween_eq_splitOnP (isBreak : Char → Bool) (cs : List Char) :
    tokensBetween isBreak cs = withoutColonsAll (cs.splitOnP isBreak) := by
  induction hLength : cs.length using Nat.strongRecOn generalizing cs with
  | ind n ih =>
    subst hLength
    unfold tokensBetween at ih ⊢
    cases cs with
    | nil => simp [tokens, withoutColonsAll, withoutColons]
    | cons c rest =>
      obtain ⟨more, hMore⟩ := splitOnP_eq_cons_takeWhile isBreak (c :: rest)
      rw [tokens_cons, tokenAt?_eq, hMore]
      dsimp only
      by_cases hNone : withoutColons ((c :: rest).takeWhile fun c => !isBreak c) = []
      · -- the piece in front of the next break has nothing but colons, with or without `c`
        rw [if_pos hNone, withoutColonsAll_cons_nil hNone]
        dsimp only
        rw [ih rest.length (by simp) rest rfl]
        obtain ⟨more', hMore'⟩ := splitOnP_eq_cons_takeWhile isBreak rest
        rw [List.splitOnP_cons_eq_if_modifyHead] at hMore
        cases hBreak : isBreak c with
        | true =>
          rw [hBreak, if_pos rfl, List.cons.injEq] at hMore
          rw [hMore.2]
        | false =>
          rw [hBreak, if_neg Bool.false_ne_true, hMore', List.modifyHead_cons,
            List.cons.injEq] at hMore
          rw [hMore', hMore.2, withoutColonsAll_cons_nil]
          rw [List.takeWhile_cons, hBreak, Bool.not_false, if_pos rfl, withoutColons_cons] at hNone
          split at hNone
          · assumption
          · cases hNone
      · -- the token takes all of the piece but the colons at its end
        have hRun : ∀ x ∈ (c :: rest).takeWhile fun c => !isBreak c, isBreak x = false :=
          fun x hx => by simpa using List.mem_takeWhile_imp hx
        have hWhole := List.takeWhile_append_dropWhile (p := fun c => !isBreak c) (l := c :: rest)
        rw [if_neg hNone, withoutColonsAll_cons hNone]
        dsimp only
        generalize (c :: rest).takeWhile (fun c => !isBreak c) = run at *
        generalize (c :: rest).dropWhile (fun c => !isBreak c) = tail at *
        have hShorter : ((c :: rest).drop (withoutColons run).length).length <
            (c :: rest).length := by
          have hPos := List.length_pos_iff.mpr hNone
          simp only [List.length_drop, List.length_cons]
          omega
        rw [ih _ hShorter _ rfl]
        rw [← hWhole] at hMore ⊢
        rw [withoutColonsAll_splitOnP hRun hMore]

end Tokens

/-! ## Names -/

/-- A name that tokens hold as it stands: there is no break of values in it, and no colon at
its end. -/
structure IsPlainName (name : String) : Prop where
  nonempty : name.toList ≠ []
  unbroken : name.toList.any isValueBreak = false
  noColon : name.toList.getLast? ≠ some ':'

theorem IsPlainName.not_isValueBreak {name : String} (h : IsPlainName name) :
    ∀ c ∈ name.toList, isValueBreak c = false := by
  simpa using h.unbroken

theorem withoutColons_eq_self {piece : List Char} (h : piece.getLast? ≠ some ':') :
    withoutColons piece = piece := by
  refine List.rdropWhile_eq_self_iff.mpr fun hPiece hColon => h ?_
  rw [List.getLast?_eq_some_getLast hPiece, eq_of_beq hColon]

/-- A plain name that stands between breaks is a token. -/
theorem mem_defaultTokens {text name : String} (hPlain : IsPlainName name)
    (hPiece : name.toList ∈ text.toList.splitOnP isValueBreak) : name ∈ defaultTokens text := by
  unfold defaultTokens
  rw [mem_dedup]
  refine List.mem_map.mpr ⟨name.toList, List.mem_append_left _ ?_, String.ofList_toList⟩
  rw [tokensBetween_eq_splitOnP]
  have hToken := List.mem_map.mpr ⟨_, hPiece, withoutColons_eq_self hPlain.noColon⟩
  refine List.mem_filter.mpr ⟨hToken, ?_⟩
  simpa using hPlain.nonempty

/-- There is no break of values in a token of the default extractor. -/
theorem not_isValueBreak_of_mem_defaultTokens {text token : String} (h : token ∈ defaultTokens text) :
    ∀ c ∈ token.toList, isValueBreak c = false := by
  unfold defaultTokens at h
  rw [mem_dedup] at h
  obtain ⟨cs, hcs, rfl⟩ := List.mem_map.mp h
  rw [String.toList_ofList]
  intro c hc
  rcases List.mem_append.mp hcs with hcs | hcs
  · exact not_break_of_mem_tokensBetween hcs c hc
  · have hPiece := not_break_of_mem_tokensBetween hcs c hc
    simp only [isPieceBreak, Bool.or_eq_false_iff] at hPiece
    simp only [hPiece]

/-! ## Two splits -/

/-- The signs that end a whole value, as blanks do. -/
def valueSigns : List Char := ['<', '>', '"', '\'', '\x60']

/-- The signs that end a piece of a value, as blanks do. -/
def pieceSigns : List Char :=
  valueSigns ++ ['.', '(', ')', '{', '}', '[', ']', '#', '=', '%']

/-- What a text is cut into at blanks and at the given signs, without the colons at the ends and
as far as anything is left. -/
def cutAt (signs : List Char) (cs : List Char) : List (List Char) :=
  withoutColonsAll (cs.splitOnP fun c => isBlank c || signs.contains c)

theorem isValueBreak_eq (c : Char) : isValueBreak c = (isBlank c || valueSigns.contains c) := by
  rw [Bool.or_comm (isBlank c)]
  simp only [isValueBreak, valueSigns, List.contains_cons, List.contains_nil, Bool.or_false,
    Bool.or_assoc]

theorem isPieceBreak_eq (c : Char) : isPieceBreak c = (isBlank c || pieceSigns.contains c) := by
  rw [isPieceBreak, isValueBreak_eq, pieceSigns, List.contains_append]
  simp only [List.contains_cons, List.contains_nil, Bool.or_assoc, Bool.or_false]

/-- The tokens of a text are what it is cut into between values and then between pieces of values,
each of them where it comes first. -/
theorem defaultTokens_eq_cutAt (text : String) :
    defaultTokens text =
      ((cutAt valueSigns text.toList ++ cutAt pieceSigns text.toList).map String.ofList).eraseDups := by
  unfold defaultTokens cutAt
  rw [dedup_eq_eraseDups, tokensBetween_eq_splitOnP, tokensBetween_eq_splitOnP,
    funext isValueBreak_eq, funext isPieceBreak_eq]

/-- Colons inside of a value stay. -/
example : defaultTokens "md:p-1: [a b:] 'a'" = ["md:p-1", "[a", "b:]", "a", "b"] := by
  decide +kernel

end StyleSieve
