import StyleSieve.Proofs.Usage.Verdict

/-!
# Expanded selectors

A selector whose terms have alternatives stands for several selectors without any: each term such as
`:is(.a, .b > .c)` is replaced by what one of its arguments stands for. The verdict on a complex
selector takes alternatives as it meets them, level by level; its expansions are as many as there are
choices, and none of them has a choice left.

* `Term.matchesAny_of_mem_expansions`, `matchesAny_of_mem_expansions`: no term of an expansion has
  alternatives.
* `keepsTerms_iff_exists_expansion`: a complex selector is kept if and only if it has an expansion in
  which every checkable term is not blocked, and safelisted or present.
-/

namespace StyleSieve

/-! ## Expansions -/

mutual

/-- The rows of terms that a term stands for. -/
def Term.expansions : Term → List (List Term)
  | .nested kind name arguments =>
    if (Term.nested kind name arguments).matchesAny then expansionsOfAny arguments
    else [[.nested kind name arguments]]
  | t => [[t]]

/-- The rows of terms that a row stands for: one for each choice of alternatives. -/
def expansions : List Term → List (List Term)
  | [] => [[]]
  | t :: rest => t.expansions.flatMap fun chosen => (expansions rest).map (chosen ++ ·)

/-- The rows of terms that one of several rows stands for. -/
def expansionsOfAny : List (List Term) → List (List Term)
  | [] => []
  | c :: rest => expansions c ++ expansionsOfAny rest

end

variable {t : Term} {c rest e : List Term} {cs : List (List Term)}

theorem Term.expansions_of_not_matchesAny (h : t.matchesAny = false) : t.expansions = [[t]] := by
  cases t with
  | nested kind name arguments =>
    rw [Term.expansions, if_neg (by rw [h]; exact Bool.false_ne_true)]
  | _ => rfl

theorem mem_expansionsOfAny : e ∈ expansionsOfAny cs ↔ ∃ c ∈ cs, e ∈ expansions c := by
  induction cs with
  | nil => simp [expansionsOfAny]
  | cons c rest ih => simp [expansionsOfAny, ih]

/-- A term with alternatives stands for what one of them stands for. -/
theorem Term.mem_expansions_nested {kind : PseudoKind} {name : String}
    (h : (Term.nested kind name cs).matchesAny = true) :
    e ∈ (Term.nested kind name cs).expansions ↔ ∃ c ∈ cs, e ∈ StyleSieve.expansions c := by
  rw [Term.expansions, if_pos h, mem_expansionsOfAny]

theorem mem_expansions_cons : e ∈ expansions (t :: rest) ↔
    ∃ chosen ∈ t.expansions, ∃ more ∈ expansions rest, chosen ++ more = e := by
  rw [expansions]
  simp only [List.mem_flatMap, List.mem_map]

/-! ## Induction over alternatives -/

mutual

/-- What holds of terms without alternatives, and of a term if it holds of all terms in its
alternatives, holds of every term. -/
theorem Term.alternatives_induction {motive : Term → Prop}
    (plain : ∀ t, t.matchesAny = false → motive t)
    (choice : ∀ kind name arguments, (Term.nested kind name arguments).matchesAny = true →
      (∀ c ∈ arguments, ∀ t ∈ c, motive t) → motive (.nested kind name arguments)) :
    (t : Term) → motive t
  | .nested kind name arguments => by
    cases hAny : (Term.nested kind name arguments).matchesAny with
    | false => exact plain _ hAny
    | true => exact choice kind name arguments hAny (inAll_of_alternatives plain choice arguments)
  | .tag _ => plain _ rfl
  | .universal => plain _ rfl
  | .hasClass _ => plain _ rfl
  | .hasId _ => plain _ rfl
  | .attribute .. => plain _ rfl
  | .pseudo .. => plain _ rfl

theorem inRow_of_alternatives {motive : Term → Prop}
    (plain : ∀ t, t.matchesAny = false → motive t)
    (choice : ∀ kind name arguments, (Term.nested kind name arguments).matchesAny = true →
      (∀ c ∈ arguments, ∀ t ∈ c, motive t) → motive (.nested kind name arguments)) :
    (c : List Term) → ∀ t ∈ c, motive t
  | [] => nofun
  | t :: rest => List.forall_mem_cons.mpr
      ⟨Term.alternatives_induction plain choice t, inRow_of_alternatives plain choice rest⟩

theorem inAll_of_alternatives {motive : Term → Prop}
    (plain : ∀ t, t.matchesAny = false → motive t)
    (choice : ∀ kind name arguments, (Term.nested kind name arguments).matchesAny = true →
      (∀ c ∈ arguments, ∀ t ∈ c, motive t) → motive (.nested kind name arguments)) :
    (cs : List (List Term)) → ∀ c ∈ cs, ∀ t ∈ c, motive t
  | [] => nofun
  | c :: rest => List.forall_mem_cons.mpr
      ⟨inRow_of_alternatives plain choice c, inAll_of_alternatives plain choice rest⟩

end

/-- What holds of every term of what a term stands for holds along what a row stands for. -/
theorem forall_mem_expansions {good : Term → Prop}
    (h : ∀ t ∈ c, ∀ e ∈ t.expansions, ∀ x ∈ e, good x) : ∀ e ∈ expansions c, ∀ x ∈ e, good x := by
  induction c with
  | nil =>
    intro e he x hx
    rw [List.mem_singleton.mp he] at hx
    cases hx
  | cons t rest ih =>
    intro e he x hx
    obtain ⟨chosen, hChosen, more, hMore, rfl⟩ := mem_expansions_cons.mp he
    rcases List.mem_append.mp hx with hx | hx
    · exact h t List.mem_cons_self chosen hChosen x hx
    · exact ih (fun t ht => h t (List.mem_cons_of_mem _ ht)) more hMore x hx

/-- No term of what a term stands for has alternatives. -/
theorem Term.matchesAny_of_mem_expansions (t : Term) :
    ∀ e ∈ t.expansions, ∀ x ∈ e, x.matchesAny = false := by
  induction t using Term.alternatives_induction with
  | plain t h =>
    intro e he x hx
    rw [Term.expansions_of_not_matchesAny h, List.mem_singleton] at he
    rw [he, List.mem_singleton] at hx
    exact hx ▸ h
  | choice kind name arguments hAny ih =>
    intro e he
    obtain ⟨c, hc, he⟩ := (Term.mem_expansions_nested hAny).mp he
    exact forall_mem_expansions (ih c hc) e he

/-- No term of an expansion has alternatives. -/
theorem matchesAny_of_mem_expansions (he : e ∈ expansions c) : ∀ x ∈ e, x.matchesAny = false :=
  forall_mem_expansions (fun t _ => t.matchesAny_of_mem_expansions) e he

/-! ## Verdicts on expansions -/

namespace Usage

variable {u : Usage}

/-- Whether a term by itself is no reason to remove a selector: it cannot be asked for, or its name is
not blocked, and safelisted or present. -/
def Admits (u : Usage) (t : Term) : Prop :=
  t.isCheckable = true →
    u.isBlocked t.name = false ∧ (u.isSafelisted t.name = true ∨ u.isPresent t = true)

/-- Whether a term is no reason to remove a selector, by its alternatives if it has some. -/
def Passes (u : Usage) (t : Term) : Prop :=
  u.blocksTerm t = false ∧ (t.isCheckable = true → u.usesTerm t = true)

theorem keepsTerms_iff_forall_passes : u.keepsTerms c = true ↔ ∀ t ∈ c, u.Passes t := by
  rw [keepsTerms_iff]
  simp only [mem_checkableTerms, Passes, forall_and, and_imp]

theorem passes_iff_admits (h : t.matchesAny = false) : u.Passes t ↔ u.Admits t := by
  rw [Passes, Admits, blocksTerm, h, usesTerm_iff_of_not_matchesAny h]
  cases t.isCheckable <;> simp

theorem passes_nested_iff {kind : PseudoKind} {name : String}
    (h : (Term.nested kind name cs).matchesAny = true) :
    u.Passes (.nested kind name cs) ↔ ∃ c ∈ cs, ∀ t ∈ c, u.Passes t := by
  have hFree : u.blocksTerm (.nested kind name cs) = false := by
    rw [blocksTerm, h, Bool.not_true, Bool.and_false, Bool.false_and]
  have hCheckable : (Term.nested kind name cs).isCheckable = true := by
    rw [Term.isCheckable, h, Bool.or_true]
  rw [Passes, and_iff_right hFree, imp_iff_right hCheckable, usesTerm_nested_iff h]
  simp only [keepsTerms_iff_forall_passes]

/-- If the verdict on each term of a row is that on what it stands for, then so it is for the row: the
choices for different terms are free of each other. -/
theorem forall_passes_iff_of_each
    (h : ∀ t ∈ c, (u.Passes t ↔ ∃ e ∈ t.expansions, ∀ x ∈ e, u.Admits x)) :
    (∀ t ∈ c, u.Passes t) ↔ ∃ e ∈ expansions c, ∀ x ∈ e, u.Admits x := by
  induction c with
  | nil => simp [expansions]
  | cons t rest ih =>
    rw [List.forall_mem_cons, h t List.mem_cons_self,
      ih fun t ht => h t (List.mem_cons_of_mem _ ht)]
    constructor
    · rintro ⟨⟨chosen, hChosen, hFirst⟩, more, hMore, hRest⟩
      refine ⟨chosen ++ more, mem_expansions_cons.mpr ⟨chosen, hChosen, more, hMore, rfl⟩, ?_⟩
      exact List.forall_mem_append.mpr ⟨hFirst, hRest⟩
    · rintro ⟨e, he, hAdmits⟩
      obtain ⟨chosen, hChosen, more, hMore, rfl⟩ := mem_expansions_cons.mp he
      obtain ⟨hFirst, hRest⟩ := List.forall_mem_append.mp hAdmits
      exact ⟨⟨chosen, hChosen, hFirst⟩, more, hMore, hRest⟩

theorem passes_iff_exists_expansion (t : Term) :
    u.Passes t ↔ ∃ e ∈ t.expansions, ∀ x ∈ e, u.Admits x := by
  induction t using Term.alternatives_induction with
  | plain t h =>
    rw [Term.expansions_of_not_matchesAny h, passes_iff_admits h]
    simp
  | choice kind name arguments hAny ih =>
    rw [passes_nested_iff hAny]
    simp only [Term.mem_expansions_nested hAny]
    constructor
    · rintro ⟨c, hc, hPasses⟩
      obtain ⟨e, he, hAdmits⟩ := (forall_passes_iff_of_each (ih c hc)).mp hPasses
      exact ⟨e, ⟨c, hc, he⟩, hAdmits⟩
    · rintro ⟨e, ⟨c, hc, he⟩, hAdmits⟩
      exact ⟨c, hc, (forall_passes_iff_of_each (ih c hc)).mpr ⟨e, he, hAdmits⟩⟩

theorem keepsTerms_iff_exists_admits :
    u.keepsTerms c = true ↔ ∃ e ∈ expansions c, ∀ x ∈ e, u.Admits x := by
  rw [keepsTerms_iff_forall_passes]
  exact forall_passes_iff_of_each fun t _ => passes_iff_exists_expansion t

/-- **The verdict on a complex selector is that on its expansions**: it is kept if and only if one of
them has no checkable term that is blocked, and only checkable terms that are safelisted or present. -/
theorem keepsTerms_iff_exists_expansion (u : Usage) (c : ComplexSelector) :
    u.keepsTerms c = true ↔
      ∃ e ∈ expansions c, (∀ t ∈ checkableTerms e, u.isBlocked t.name = false) ∧
        ∀ t ∈ checkableTerms e, u.isSafelisted t.name = true ∨ u.isPresent t = true := by
  rw [keepsTerms_iff_exists_admits]
  refine exists_congr fun e => and_congr_right fun _ => ?_
  simp only [mem_checkableTerms]
  constructor
  · intro hAdmits
    exact ⟨fun t ht => (hAdmits t ht.1 ht.2).1, fun t ht => (hAdmits t ht.1 ht.2).2⟩
  · rintro ⟨hFree, hUsed⟩ t ht hCheckable
    exact ⟨hFree t ⟨ht, hCheckable⟩, hUsed t ⟨ht, hCheckable⟩⟩

/-- Of three expansions the last one has only terms in use; the second one has a blocked term. -/
example :
    let c : ComplexSelector := [.tag "p", .nested .ofClass "is"
      [[.hasClass "a"], [.nested .ofClass "where" [[.hasId "b"], [.hasId "c"]], .hasClass "d"]]]
    let u : Usage := ⟨["p", "b", "c", "d"], {}, [.literal "b"]⟩
    expansions c = [[.tag "p", .hasClass "a"], [.tag "p", .hasId "b", .hasClass "d"],
        [.tag "p", .hasId "c", .hasClass "d"]] ∧
      u.keepsTerms c = true := by
  decide

end Usage

end StyleSieve
