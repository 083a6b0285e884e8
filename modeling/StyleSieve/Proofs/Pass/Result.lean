import Mathlib.Data.List.Forall2
import StyleSieve.Pass

/-!
# Results of passes

A pass has a result if all its parts have one. Events and records are left out here.

* `Pass.result_bind_eq_ok`: the result of two passes in a row comes from a result of the first.
* `mapM_eq_ok_iff`: a traversal that can fail has a result if each of its steps has one.
* `mapM_eq_error_iff`: it fails with the first step that fails.
* `mem_filterM_iff`: what a test that can fail lets through.
-/

namespace StyleSieve

variable {ε α β : Type}

/-! ## Traversals that can fail -/

theorem bind_eq_ok_iff {x : Except ε α} {f : α → Except ε β} {b : β} :
    x >>= f = .ok b ↔ ∃ a, x = .ok a ∧ f a = .ok b := by
  cases x with
  | error e => simp [bind, Except.bind]
  | ok a => simp [bind, Except.bind]

theorem mapError_eq_ok_iff {δ : Type} {x : Except ε α} {f : ε → δ} {a : α} :
    x.mapError f = .ok a ↔ x = .ok a := by
  cases x <;> simp [Except.mapError]

theorem mapError_eq_error_iff {δ : Type} {x : Except ε α} {f : ε → δ} {d : δ} :
    x.mapError f = .error d ↔ ∃ e, x = .error e ∧ f e = d := by
  cases x <;> simp [Except.mapError]

theorem map_eq_ok_iff {x : Except ε α} {f : α → β} {b : β} :
    x.map f = .ok b ↔ ∃ a, x = .ok a ∧ f a = b := by
  cases x <;> simp [Except.map]

theorem map_eq_error_iff {x : Except ε α} {f : α → β} {e : ε} :
    x.map f = .error e ↔ x = .error e := by
  cases x <;> simp [Except.map]

theorem mapM_eq_ok_iff {f : α → Except ε β} {xs : List α} {ys : List β} :
    xs.mapM f = .ok ys ↔ List.Forall₂ (fun x y => f x = .ok y) xs ys := by
  induction xs generalizing ys with
  | nil =>
    rw [List.mapM_nil, List.forall₂_nil_left_iff]
    exact ⟨fun h => (Except.ok.inj h).symm, fun h => h ▸ rfl⟩
  | cons x xs ih =>
    rw [List.mapM_cons, bind_eq_ok_iff, List.forall₂_cons_left_iff]
    constructor
    · rintro ⟨y, hy, h⟩
      obtain ⟨rest, hRest, h⟩ := bind_eq_ok_iff.mp h
      exact ⟨y, rest, hy, ih.mp hRest, (Except.ok.inj h).symm⟩
    · rintro ⟨y, rest, hy, hRest, rfl⟩
      exact ⟨y, hy, bind_eq_ok_iff.mpr ⟨rest, ih.mpr hRest, rfl⟩⟩

/-- A traversal of two lists, the second of which gives known values. -/
theorem mapM_append_eq_ok_iff {f : α → Except ε β} {xs ys : List α} {zs ws : List β}
    (h : ys.mapM f = .ok zs) : (xs ++ ys).mapM f = .ok (ws ++ zs) ↔ xs.mapM f = .ok ws := by
  rw [List.mapM_append, h]
  cases xs.mapM f <;> simp [bind, Except.bind, pure, Except.pure]

/-- The values of a traversal are those of its steps. -/
theorem mem_mapM_iff {f : α → Except ε β} {xs : List α} {ys : List β} (h : xs.mapM f = .ok ys)
    {y : β} : y ∈ ys ↔ ∃ x ∈ xs, f x = .ok y := by
  induction mapM_eq_ok_iff.mp h with
  | nil => simp
  | @cons x z xs zs hx hxs ih =>
    rw [List.mem_cons, ih (mapM_eq_ok_iff.mpr hxs)]
    constructor
    · rintro (rfl | ⟨x', hx', hy⟩)
      · exact ⟨x, List.mem_cons_self, hx⟩
      · exact ⟨x', List.mem_cons_of_mem _ hx', hy⟩
    · rintro ⟨x', hx', hy⟩
      rcases List.mem_cons.mp hx' with rfl | hx'
      · exact Or.inl (Except.ok.inj (hy.symm.trans hx))
      · exact Or.inr ⟨x', hx', hy⟩

/-- Every step of a traversal that has a result has one. -/
theorem exists_of_mapM_eq_ok {f : α → Except ε β} {xs : List α} {ys : List β}
    (h : xs.mapM f = .ok ys) {x : α} (hx : x ∈ xs) : ∃ y ∈ ys, f x = .ok y := by
  induction mapM_eq_ok_iff.mp h with
  | nil => cases hx
  | @cons x' y xs ys hy hys ih =>
    rcases List.mem_cons.mp hx with rfl | hx
    · exact ⟨y, List.mem_cons_self, hy⟩
    · obtain ⟨y', hy', h⟩ := ih (mapM_eq_ok_iff.mpr hys) hx
      exact ⟨y', List.mem_cons_of_mem _ hy', h⟩

/-- A traversal fails with the failure of the first of its steps that fails. -/
theorem mapM_eq_error_iff {f : α → Except ε β} {xs : List α} {e : ε} :
    xs.mapM f = .error e ↔ ∃ before x after, xs = before ++ x :: after ∧
      (∀ y ∈ before, ∃ z, f y = .ok z) ∧ f x = .error e := by
  induction xs with
  | nil => simp [pure, Except.pure]
  | cons x xs ih =>
    rw [List.mapM_cons]
    cases hFirst : f x with
    | error e' =>
      constructor
      · intro h
        cases h
        exact ⟨[], x, xs, rfl, fun y hy => absurd hy List.not_mem_nil, hFirst⟩
      · rintro ⟨before, y, after, hParts, hBefore, hFails⟩
        cases before with
        | nil =>
          obtain ⟨rfl, rfl⟩ := List.cons.inj hParts
          cases hFirst.symm.trans hFails
          rfl
        | cons z before =>
          obtain ⟨rfl, rfl⟩ := List.cons.inj hParts
          obtain ⟨z, hz⟩ := hBefore _ List.mem_cons_self
          cases hFirst.symm.trans hz
    | ok y =>
      have hRest : ((Except.ok y >>= fun y => xs.mapM f >>= fun ys => pure (y :: ys)) =
          (.error e : Except ε (List β))) ↔ xs.mapM f = .error e := by
        cases xs.mapM f <;> simp [bind, Except.bind, pure, Except.pure]
      rw [hRest, ih]
      constructor
      · rintro ⟨before, z, after, rfl, hBefore, hFails⟩
        exact ⟨x :: before, z, after, rfl, List.forall_mem_cons.mpr ⟨⟨y, hFirst⟩, hBefore⟩, hFails⟩
      · rintro ⟨before, z, after, hParts, hBefore, hFails⟩
        cases before with
        | nil =>
          obtain ⟨rfl, rfl⟩ := List.cons.inj hParts
          cases hFirst.symm.trans hFails
        | cons w before =>
          obtain ⟨rfl, rfl⟩ := List.cons.inj hParts
          exact ⟨before, z, after, rfl, fun v hv => hBefore v (List.mem_cons_of_mem _ hv), hFails⟩

/-- A traversal fails with the failure of one of its steps. -/
theorem exists_of_mapM_eq_error {f : α → Except ε β} {xs : List α} {e : ε}
    (h : xs.mapM f = .error e) : ∃ x ∈ xs, f x = .error e := by
  obtain ⟨before, x, after, rfl, -, hFails⟩ := mapM_eq_error_iff.mp h
  exact ⟨x, List.mem_append_right before List.mem_cons_self, hFails⟩

/-- A traversal has a result if each of its steps has one. -/
theorem exists_mapM_eq_ok {f : α → Except ε β} {xs : List α} (h : ∀ x ∈ xs, ∃ y, f x = .ok y) :
    ∃ ys, xs.mapM f = .ok ys := by
  cases hResult : xs.mapM f with
  | ok ys => exact ⟨ys, rfl⟩
  | error e =>
    obtain ⟨x, hx, hFails⟩ := exists_of_mapM_eq_error hResult
    obtain ⟨y, hy⟩ := h x hx
    cases hy.symm.trans hFails

theorem mem_filterAuxM_iff {f : α → Except ε Bool} {xs acc ys : List α}
    (h : xs.filterAuxM f acc = .ok ys) {y : α} :
    y ∈ ys ↔ (y ∈ xs ∧ f y = .ok true) ∨ y ∈ acc := by
  induction xs generalizing acc with
  | nil =>
    cases Except.ok.inj h
    simp
  | cons x xs ih =>
    obtain ⟨b, hb, h⟩ := bind_eq_ok_iff.mp h
    rw [ih h, List.mem_cons, or_and_right, or_assoc]
    cases b with
    | true =>
      simp only [cond_true, List.mem_cons]
      constructor
      · rintro (hMem | rfl | hMem)
        · exact Or.inr (Or.inl hMem)
        · exact Or.inl ⟨rfl, hb⟩
        · exact Or.inr (Or.inr hMem)
      · rintro (⟨rfl, -⟩ | hMem | hMem)
        · exact Or.inr (Or.inl rfl)
        · exact Or.inl hMem
        · exact Or.inr (Or.inr hMem)
    | false =>
      simp only [cond_false]
      refine ⟨Or.inr, ?_⟩
      rintro (⟨rfl, hTrue⟩ | hMem)
      · cases hb.symm.trans hTrue
      · exact hMem

/-- A test that can fail lets through what satisfies it. -/
theorem mem_filterM_iff {f : α → Except ε Bool} {xs ys : List α} (h : xs.filterM f = .ok ys)
    {y : α} : y ∈ ys ↔ y ∈ xs ∧ f y = .ok true := by
  obtain ⟨zs, hzs, h⟩ := bind_eq_ok_iff.mp h
  cases Except.ok.inj h
  rw [List.mem_reverse, mem_filterAuxM_iff hzs]
  simp

/-! ## Passes -/

namespace Pass

@[simp] theorem result_pure (a : α) : (pure a : Pass ε α).result = .ok a := rfl

@[simp] theorem result_emit (event : ε) : (emit event).result = .ok () := rfl

@[simp] theorem result_report (records : List LogRecord) :
    (report records : Pass ε Unit).result = .ok () := rfl

@[simp] theorem result_note (severity : Severity) (source message : String) :
    (note severity source message : Pass ε Unit).result = .ok () := rfl

@[simp] theorem result_ofExcept (x : Except PassError α) :
    (ofExcept x : Pass ε α).result = x := rfl

theorem result_bind (p : Pass ε α) (f : α → Pass ε β) :
    (p >>= f).result = p.result >>= fun a => (f a).result := by
  change (Pass.bind p f).result = _
  unfold Pass.bind
  cases p.result <;> rfl

theorem result_bind_eq_ok {p : Pass ε α} {f : α → Pass ε β} {b : β} :
    (p >>= f).result = .ok b ↔ ∃ a, p.result = .ok a ∧ (f a).result = .ok b := by
  rw [result_bind, bind_eq_ok_iff]

/-- A part without a value of its own does not count for the result. -/
theorem result_bind_unit {p : Pass ε Unit} (h : p.result = .ok ()) (f : Unit → Pass ε β) :
    (p >>= f).result = (f ()).result := by
  rw [result_bind, h]
  rfl

end Pass

end StyleSieve
