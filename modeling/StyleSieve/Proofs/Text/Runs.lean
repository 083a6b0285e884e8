import StyleSieve.Text.Blank

/-!
# Pieces and runs

The pieces of a text are what stands between two breaks, or between a break and an end.

* `takeWhile_append_of_head?`: a run ends in front of a character of another kind.
* `runs_eq_splitOnP`: the runs of a text are its pieces without the empty ones.
* `mem_splitOnP_of_between`: what stands between two breaks is a piece.
* `mem_splitOnP_of_mem`: a piece between breaks of one kind that has no break of a larger kind
  is a piece for both.
-/

namespace StyleSieve.Text

variable {isBreak : Char → Bool} {cs piece before after : List Char} {c : Char}

/-! ## The run at the start -/

theorem takeWhile_of_head? (h : ∀ c ∈ cs.head?, isBreak c = false) : cs.takeWhile isBreak = [] := by
  cases cs with
  | nil => rfl
  | cons c rest => exact List.takeWhile_cons_of_neg (by simp [h c rfl])

/-- A run ends in front of a character of another kind. -/
theorem takeWhile_append_of_head? (hRun : ∀ c ∈ piece, isBreak c = true)
    (hStop : ∀ c ∈ after.head?, isBreak c = false) :
    (piece ++ after).takeWhile isBreak = piece := by
  rw [List.takeWhile_append_of_pos hRun, takeWhile_of_head? hStop, List.append_nil]

/-! ## Runs -/

theorem runsFrom_eq_splitOnPPrepend (isBreak : Char → Bool) (current cs : List Char) :
    runsFrom (fun c => !isBreak c) current cs =
      (cs.splitOnPPrepend isBreak current).filter fun r => !r.isEmpty := by
  induction cs generalizing current with
  | nil => cases current <;> simp [runsFrom]
  | cons c rest ih =>
    unfold runsFrom
    cases hBreak : isBreak c with
    | true =>
      rw [List.splitOnPPrepend_cons_pos hBreak, Bool.not_true, if_neg Bool.false_ne_true, ih]
      cases current <;> simp
    | false =>
      rw [List.splitOnPPrepend_cons_neg hBreak, Bool.not_false, if_pos rfl, ih]

/-- The runs are the pieces without the empty ones. -/
theorem runs_eq_splitOnP (isBreak : Char → Bool) (cs : List Char) :
    runs (fun c => !isBreak c) cs = (cs.splitOnP isBreak).filter fun r => !r.isEmpty :=
  runsFrom_eq_splitOnPPrepend isBreak [] cs

/-! ## Pieces between breaks -/

theorem mem_splitOnP_right (hBreak : isBreak c = true) (h : piece ∈ after.splitOnP isBreak) :
    piece ∈ (before ++ c :: after).splitOnP isBreak := by
  rw [List.splitOnP_append_cons before after hBreak]
  exact List.mem_append_right _ h

theorem mem_splitOnP_left (hBreak : isBreak c = true) (h : piece ∈ before.splitOnP isBreak) :
    piece ∈ (before ++ c :: after).splitOnP isBreak := by
  rw [List.splitOnP_append_cons before after hBreak]
  exact List.mem_append_left _ h

/-- What stands between two breaks is a piece. -/
theorem mem_splitOnP_of_between {d : Char} (hBefore : isBreak c = true)
    (hPiece : ∀ x ∈ piece, isBreak x = false) (hAfter : isBreak d = true) :
    piece ∈ (before ++ c :: (piece ++ d :: after)).splitOnP isBreak := by
  refine mem_splitOnP_right hBefore ?_
  rw [List.splitOnP_append_cons_of_forall_mem hPiece d hAfter]
  exact List.mem_cons_self

/-! ## Breaks of two kinds -/

/-- The first piece and the pieces behind it, where the breaks of one kind are some of those of
another: a piece between breaks of the one kind without a break of the other is a piece for
both. Behind the first break both cut. -/
theorem splitOnP_refine {p q : Char → Bool} (hSome : ∀ c, p c = true → q c = true)
    (cs : List Char) : ∃ first more first' more', cs.splitOnP p = first :: more ∧
      cs.splitOnP q = first' :: more' ∧ ((∀ x ∈ first, q x = false) → first' = first) ∧
      ∀ piece ∈ more, (∀ x ∈ piece, q x = false) → piece ∈ more' := by
  induction cs with
  | nil => exact ⟨[], [], [], [], rfl, rfl, fun _ => rfl, nofun⟩
  | cons c rest ih =>
    obtain ⟨first, more, first', more', hP, hQ, hFirst, hMore⟩ := ih
    rw [List.splitOnP_cons_eq_if_modifyHead, List.splitOnP_cons_eq_if_modifyHead, hP, hQ]
    cases hBreak : p c with
    | true =>
      rw [hSome c hBreak]
      refine ⟨[], _, [], _, rfl, rfl, fun _ => rfl, fun piece hPiece hPlain => ?_⟩
      rcases List.mem_cons.mp hPiece with rfl | hPiece
      · exact List.mem_cons.mpr (Or.inl (hFirst hPlain).symm)
      · exact List.mem_cons_of_mem _ (hMore piece hPiece hPlain)
    | false =>
      cases hOther : q c with
      | true =>
        refine ⟨c :: first, more, [], first' :: more', rfl, rfl, fun hPlain => ?_,
          fun piece hPiece hPlain => List.mem_cons_of_mem _ (hMore piece hPiece hPlain)⟩
        rw [hPlain c List.mem_cons_self] at hOther
        cases hOther
      | false =>
        refine ⟨c :: first, more, c :: first', more', rfl, rfl, fun hPlain => ?_, hMore⟩
        rw [hFirst fun x hx => hPlain x (List.mem_cons_of_mem _ hx)]

/-- A piece between breaks of one kind that has no break of a larger kind is a piece for both. -/
theorem mem_splitOnP_of_mem {p q : Char → Bool} (hSome : ∀ c, p c = true → q c = true)
    (h : piece ∈ cs.splitOnP p) (hPlain : ∀ x ∈ piece, q x = false) :
    piece ∈ cs.splitOnP q := by
  obtain ⟨first, more, first', more', hP, hQ, hFirst, hMore⟩ := splitOnP_refine hSome cs
  rw [hP] at h
  rw [hQ]
  rcases List.mem_cons.mp h with rfl | h
  · exact List.mem_cons.mpr (Or.inl (hFirst hPlain).symm)
  · exact List.mem_cons_of_mem _ (hMore piece h hPlain)

end StyleSieve.Text
