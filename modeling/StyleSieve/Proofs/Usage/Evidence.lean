import StyleSieve.Proofs.Usage.Verdict

/-!
# More evidence of use

Tokens and safelist entries speak for a selector, blocklist entries against it. If one state of
knowledge has all that speaks for selectors in another and nothing more against them, then it
keeps whatever the other keeps.

* `keepsTerms_mono`: this holds for complex selectors, however deep their alternatives are.
* `keeps_mono`: this holds for the texts of selector lists.
-/

namespace StyleSieve

/-- Every entry that decides about selectors in `a` is in `b`. -/
structure Safelist.Within (a b : Safelist) : Prop where
  standard : a.standard ⊆ b.standard
  greedy : a.greedy ⊆ b.greedy
  deep : a.deep ⊆ b.deep

theorem Safelist.Within.extended {a b : Safelist} (h : a.Within b) {xs ys : List String}
    (hFound : xs ⊆ ys) : (a.extended xs).Within (b.extended ys) where
  standard := List.append_subset.mpr
    ⟨List.append_subset.mpr ⟨fun _ he => List.mem_append_left _ (List.mem_append_left _ he),
      fun _ he => List.mem_append_left _ (List.mem_append_right _ (h.standard he))⟩,
    fun _ he => List.mem_append_right _ (List.map_subset _ hFound he)⟩
  greedy := List.append_subset.mpr ⟨List.subset_append_left .., fun _ he =>
    List.mem_append_right _ (h.greedy he)⟩
  deep := h.deep

/-- There is at least as much evidence of use in `v` as in `u`. -/
structure Usage.Within (u v : Usage) : Prop where
  tokens : u.tokens ⊆ v.tokens
  safelist : u.safelist.Within v.safelist
  blocklist : v.blocklist ⊆ u.blocklist

theorem anyCovers_mono {xs ys : List Entry} (h : xs ⊆ ys) {value : String}
    (hCovers : anyCovers xs value = true) : anyCovers ys value = true := by
  obtain ⟨e, he, hValue⟩ := anyCovers_iff.mp hCovers
  exact anyCovers_iff.mpr ⟨e, h he, hValue⟩

namespace Usage

variable {u v : Usage}

/-! ## Simple selectors -/

theorem isSafelisted_mono (h : u.Within v) {value : String}
    (hSafe : u.isSafelisted value = true) : v.isSafelisted value = true :=
  anyCovers_mono h.safelist.standard hSafe

theorem contains_mono (h : u.Within v) {value : String}
    (hToken : u.tokens.contains value = true) : v.tokens.contains value = true :=
  List.contains_iff_mem.mpr (h.tokens (List.contains_iff_mem.mp hToken))

theorem anyToken_mono (h : u.Within v) {test : List Char → Bool}
    (hToken : u.anyToken test = true) : v.anyToken test = true := by
  obtain ⟨t, ht, hTest⟩ := List.any_eq_true.mp hToken
  exact List.any_eq_true.mpr ⟨t, h.tokens ht, hTest⟩

theorem hasValue_mono (h : u.Within v) {value : String} {operator : AttributeOperator}
    (hValue : u.hasValue value operator = true) : v.hasValue value operator = true := by
  cases operator with
  | equals => exact contains_mono h hValue
  | includes => exact contains_mono h hValue
  | dashMatch =>
    rcases Bool.or_eq_true_iff.mp hValue with hValue | hValue
    · exact Bool.or_eq_true_iff.mpr (Or.inl (contains_mono h hValue))
    · exact Bool.or_eq_true_iff.mpr (Or.inr (anyToken_mono h hValue))
  | beginsWith => exact anyToken_mono h hValue
  | endsWith => exact anyToken_mono h hValue
  | contains => exact anyToken_mono h hValue

theorem hasAttribute_mono (h : u.Within v) {name : String}
    {condition : Option (AttributeOperator × String)}
    (hAttribute : u.hasAttribute name condition = true) :
    v.hasAttribute name condition = true := by
  unfold hasAttribute at hAttribute ⊢
  split
  · rfl
  · rename_i hStatic
    rw [if_neg hStatic] at hAttribute
    split at hAttribute
    · cases hAttribute
    · rename_i hKnown
      have hKnown' : ¬(!assumedAttributes.contains (Text.lower name) &&
          !v.tokens.contains name) = true := by
        intro hMissing
        obtain ⟨hOther, hToken⟩ := Bool.and_eq_true_iff.mp hMissing
        refine hKnown (Bool.and_eq_true_iff.mpr ⟨hOther, ?_⟩)
        cases hOld : u.tokens.contains name with
        | true =>
          rw [contains_mono h hOld] at hToken
          cases hToken
        | false => rfl
      rw [if_neg hKnown']
      cases condition with
      | none => rfl
      | some c =>
        obtain ⟨operator, value⟩ := c
        rcases Bool.or_eq_true_iff.mp hAttribute with hEmpty | hValue
        · exact Bool.or_eq_true_iff.mpr (Or.inl hEmpty)
        · exact Bool.or_eq_true_iff.mpr (Or.inr (hasValue_mono h hValue))

theorem isPresent_mono (h : u.Within v) {t : Term} (hPresent : u.isPresent t = true) :
    v.isPresent t = true := by
  cases t with
  | universal => rfl
  | tag name =>
    rcases Bool.or_eq_true_iff.mp hPresent with hName | hName
    · exact Bool.or_eq_true_iff.mpr (Or.inl (contains_mono h hName))
    · exact Bool.or_eq_true_iff.mpr (Or.inr (contains_mono h hName))
  | hasClass name => exact contains_mono h hPresent
  | hasId name => exact contains_mono h hPresent
  | «attribute» name condition => exact hasAttribute_mono h hPresent
  | pseudo => cases hPresent
  | nested => cases hPresent

/-- What is not blocked stays so with fewer entries that block. -/
theorem blocksTerm_anti (h : u.Within v) {t : Term} (hFree : u.blocksTerm t = false) :
    v.blocksTerm t = false := by
  cases hBlocked : v.blocksTerm t with
  | false => rfl
  | true =>
    obtain ⟨hAsked, hBlocked⟩ := Bool.and_eq_true_iff.mp hBlocked
    have hOld : u.blocksTerm t = true :=
      Bool.and_eq_true_iff.mpr ⟨hAsked, anyCovers_mono h.blocklist hBlocked⟩
    rw [hOld] at hFree
    cases hFree

/-! ## Complex selectors

The recursion follows the terms. A term with alternatives has complex selectors as arguments,
so one statement is needed for terms, one for rows of terms and one for rows of arguments. -/

theorem keepsTerms_mono_of {c : List Term} (h : u.Within v)
    (hUses : u.usesTerms c = true → v.usesTerms c = true) (hKeeps : u.keepsTerms c = true) :
    v.keepsTerms c = true := by
  obtain ⟨hFree, hUse⟩ := keepsTerms_iff.mp hKeeps
  exact keepsTerms_iff.mpr ⟨fun t ht => blocksTerm_anti h (hFree t ht),
    usesTerms_iff.mp (hUses (usesTerms_iff.mpr hUse))⟩

mutual

theorem usesTerm_mono (h : u.Within v) (t : Term) (hUse : u.usesTerm t = true) :
    v.usesTerm t = true := by
  cases hAny : t.matchesAny with
  | false =>
    rw [usesTerm_iff_of_not_matchesAny hAny] at hUse ⊢
    exact hUse.imp (isSafelisted_mono h) (isPresent_mono h)
  | true =>
    match t, hAny with
    | .nested kind name arguments, hAny =>
      rw [usesTerm, if_pos hAny] at hUse ⊢
      exact keepsAny_mono h arguments hUse

theorem usesTerms_mono (h : u.Within v) (ts : List Term) (hUse : u.usesTerms ts = true) :
    v.usesTerms ts = true := by
  match ts with
  | [] => rfl
  | t :: rest =>
    rw [usesTerms] at hUse ⊢
    obtain ⟨hHead, hRest⟩ := Bool.and_eq_true_iff.mp hUse
    refine Bool.and_eq_true_iff.mpr ⟨?_, usesTerms_mono h rest hRest⟩
    rcases Bool.or_eq_true_iff.mp hHead with hSkip | hHead
    · exact Bool.or_eq_true_iff.mpr (Or.inl hSkip)
    · exact Bool.or_eq_true_iff.mpr (Or.inr (usesTerm_mono h t hHead))

theorem keepsAny_mono (h : u.Within v) (cs : List (List Term)) (hKeeps : u.keepsAny cs = true) :
    v.keepsAny cs = true := by
  match cs with
  | [] => cases hKeeps
  | c :: rest =>
    rw [keepsAny] at hKeeps ⊢
    rcases Bool.or_eq_true_iff.mp hKeeps with hHead | hRest
    · exact Bool.or_eq_true_iff.mpr
        (Or.inl (keepsTerms_mono_of h (usesTerms_mono h c) hHead))
    · exact Bool.or_eq_true_iff.mpr (Or.inr (keepsAny_mono h rest hRest))

end

theorem keepsTerms_mono (h : u.Within v) {c : ComplexSelector}
    (hKeeps : u.keepsTerms c = true) : v.keepsTerms c = true :=
  keepsTerms_mono_of h (usesTerms_mono h c) hKeeps

/-! ## Selector lists -/

theorem isProtected_mono (h : u.Within v) {selector : String}
    (hProtected : u.isProtected selector = true) : v.isProtected selector = true := by
  obtain ⟨p, hp, hFound⟩ := List.any_eq_true.mp hProtected
  refine List.any_eq_true.mpr ⟨p, ?_, hFound⟩
  rcases List.mem_append.mp hp with hp | hp
  · exact List.mem_append_left _ (h.safelist.greedy hp)
  · exact List.mem_append_right _ (h.safelist.deep hp)

/-- What is kept on some evidence is kept on more. -/
theorem keeps_mono (h : u.Within v) {selector : String} (hKeeps : u.keeps selector = true) :
    v.keeps selector = true := by
  rcases keeps_iff.mp hKeeps with hProtected | hSafe | hParsed
  · exact keeps_iff.mpr (Or.inl (isProtected_mono h hProtected))
  · exact keeps_iff.mpr (Or.inr (Or.inl (isSafelisted_mono h hSafe)))
  · exact keeps_iff.mpr (Or.inr (Or.inr fun cs hRead c hc =>
      keepsTerms_mono h (hParsed cs hRead c hc)))

end Usage

end StyleSieve
