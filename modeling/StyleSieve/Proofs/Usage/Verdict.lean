import StyleSieve.Usage

/-!
# Verdicts as quantified statements

The verdict on a selector is computed by a recursion through the arguments of `:is()` and its
kin. Here every step of it is read as a statement about members.

* `keepsTerms_iff`: a complex selector is kept if no term of it is blocked and every checkable
  term is in use.
* `usesTerm_nested_iff`: a term with alternatives is in use if one of them is kept.
* `keeps_iff`: a selector stays if the safelist speaks of it or if all complex selectors that
  it is read as are kept. A selector that cannot be read is read as none.
-/

namespace StyleSieve

theorem anyCovers_iff {entries : List Entry} {value : String} :
    anyCovers entries value = true ↔ ∃ e ∈ entries, e.covers value = true := by
  simp only [anyCovers, List.any_eq_true]

theorem mem_checkableTerms {t : Term} {s : ComplexSelector} :
    t ∈ checkableTerms s ↔ t ∈ s ∧ t.isCheckable = true := by
  simp only [checkableTerms, List.mem_filter]

namespace Usage

variable {u : Usage}

theorem usesTerms_iff {s : List Term} :
    u.usesTerms s = true ↔ ∀ t ∈ checkableTerms s, u.usesTerm t = true := by
  induction s with
  | nil => simp [usesTerms, checkableTerms]
  | cons t rest ih =>
    rw [usesTerms, Bool.and_eq_true, ih]
    simp only [mem_checkableTerms, Bool.or_eq_true, Bool.not_eq_true']
    constructor
    · rintro ⟨hHead, hRest⟩ x ⟨hx, hCheck⟩
      rcases List.mem_cons.mp hx with rfl | hx
      · rcases hHead with h | h
        · rw [hCheck] at h
          cases h
        · exact h
      · exact hRest x ⟨hx, hCheck⟩
    · intro h
      refine ⟨?_, fun x hx => h x ⟨List.mem_cons_of_mem _ hx.1, hx.2⟩⟩
      cases hCheck : t.isCheckable with
      | false => exact Or.inl rfl
      | true => exact Or.inr (h t ⟨List.mem_cons_self, hCheck⟩)

theorem keepsTerms_iff {c : ComplexSelector} :
    u.keepsTerms c = true ↔
      (∀ t ∈ c, u.blocksTerm t = false) ∧ ∀ t ∈ checkableTerms c, u.usesTerm t = true := by
  rw [keepsTerms, Bool.and_eq_true, usesTerms_iff]
  simp

theorem keepsAny_iff {cs : List (List Term)} :
    u.keepsAny cs = true ↔ ∃ c ∈ cs, u.keepsTerms c = true := by
  induction cs with
  | nil => simp [keepsAny]
  | cons c rest ih =>
    rw [keepsAny, Bool.or_eq_true, ih, ← keepsTerms]
    simp

theorem usesTerm_nested_iff {kind : PseudoKind} {name : String} {arguments : List (List Term)}
    (h : (Term.nested kind name arguments).matchesAny = true) :
    u.usesTerm (.nested kind name arguments) = true ↔
      ∃ c ∈ arguments, u.keepsTerms c = true := by
  rw [usesTerm, if_pos h, keepsAny_iff]

/-- A term without alternatives is in use if it is safelisted or present. -/
theorem usesTerm_iff_of_not_matchesAny {t : Term} (h : t.matchesAny = false) :
    u.usesTerm t = true ↔ u.isSafelisted t.name = true ∨ u.isPresent t = true := by
  cases t with
  | nested kind name arguments =>
    rw [usesTerm, if_neg (by rw [h]; decide), Bool.or_eq_true, Term.name]
  | _ => simp only [usesTerm, Bool.or_eq_true]

theorem keeps_iff {selector : String} :
    u.keeps selector = true ↔
      u.isProtected selector = true ∨ u.isSafelisted selector = true ∨
        ∀ cs, Selector.parse selector = .ok cs → ∀ c ∈ cs, u.keepsTerms c = true := by
  unfold keeps verdict
  cases hProtected : u.isProtected selector with
  | true => simp
  | false =>
    cases hSafe : u.isSafelisted selector with
    | true => simp
    | false =>
      cases hParse : Selector.parse selector with
      | error e => simp
      | ok cs =>
        simp only [Bool.false_eq_true, if_false, false_or, Except.ok.injEq, forall_eq',
          ← List.all_eq_true]
        split <;> simp_all

end Usage

end StyleSieve
