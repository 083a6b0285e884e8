import Mathlib.Control.Monad.Basic
import StyleSieve.Proofs.Usage.Verdict

/-!
# Blocked names

A selector with a blocked name is removed whatever the content and the safelist say of its names. Only
where the safelist speaks of the selector as a whole the blocklist is not asked at all.

* `keepsTerms_of_blocked`: a complex selector with a blocked name is not kept.
* `keeps_iff_of_blocked`: a selector list with a blocked name is kept just if the safelist speaks of its
  text.
* `not_rejected_of_blocked`: a blocked name that every safelist has as a whole selector is kept.
-/

namespace StyleSieve.Usage

variable {u : Usage} {t : Term} {c : ComplexSelector} {cs : List ComplexSelector} {text : String}

/-- A complex selector with a blocked name is not kept. -/
theorem keepsTerms_of_blocked (ht : t ∈ c) (hCheckable : t.isCheckable = true)
    (hPlain : t.matchesAny = false) (hBlocked : u.isBlocked t.name = true) :
    u.keepsTerms c = false := by
  have hBlocks : u.blocksTerm t = true := by
    rw [blocksTerm, hCheckable, hPlain, hBlocked]
    rfl
  refine Bool.eq_false_iff.mpr fun hKeeps => ?_
  have hFree := (keepsTerms_iff.mp hKeeps).1 t ht
  rw [hBlocks] at hFree
  cases hFree

theorem isProtected_iff :
    u.isProtected text = true ↔
      ∃ p ∈ u.safelist.greedy ++ u.safelist.deep, p.search text = true := by
  rw [isProtected, List.any_eq_true]

theorem isSafelisted_iff :
    u.isSafelisted text = true ↔ ∃ e ∈ u.safelist.standard, e.covers text = true :=
  anyCovers_iff

/-- **A blocked name removes its selector list**, except that the whole text of the list is kept if a
greedy or deep pattern finds something in it or a standard entry speaks of it. -/
theorem keeps_iff_of_blocked (hParse : Selector.parse text = .ok cs) (hc : c ∈ cs) (ht : t ∈ c)
    (hCheckable : t.isCheckable = true) (hPlain : t.matchesAny = false)
    (hBlocked : u.isBlocked t.name = true) :
    u.keeps text = true ↔
      (∃ p ∈ u.safelist.greedy ++ u.safelist.deep, p.search text = true) ∨
        ∃ e ∈ u.safelist.standard, e.covers text = true := by
  have hRemoved : ¬ ∀ cs, Selector.parse text = .ok cs → ∀ c ∈ cs, u.keepsTerms c = true := by
    intro hKeeps
    have hKept := hKeeps cs hParse c hc
    rw [keepsTerms_of_blocked ht hCheckable hPlain hBlocked] at hKept
    cases hKept
  rw [keeps_iff, isProtected_iff, isSafelisted_iff, or_iff_left hRemoved]

/-- A class that is in the content and on the safelist, but also on the blocklist. -/
theorem keeps_iff_of_blocked_class :
    let u : Usage := ⟨["card", "b"], { standard := [.literal "card"] }, [.literal "card"]⟩
    u.isBlocked "card" = true ∧
      Selector.parse "i, b > .card" = .ok [[.tag "i"], [.tag "b", .hasClass "card"]] ∧
      u.keeps "i, b > .card" = false := by
  intro u
  have hBlocked : u.isBlocked "card" = true := by decide
  have hParse : Selector.parse "i, b > .card" = .ok [[.tag "i"], [.tag "b", .hasClass "card"]] := by
    decide +kernel
  refine ⟨hBlocked, hParse, Bool.eq_false_iff.mpr fun hKeeps => ?_⟩
  have hSecond : [Term.tag "b", .hasClass "card"] ∈ [[Term.tag "i"], [.tag "b", .hasClass "card"]] :=
    List.mem_cons_of_mem _ List.mem_cons_self
  have hClass : Term.hasClass "card" ∈ [Term.tag "b", .hasClass "card"] :=
    List.mem_cons_of_mem _ List.mem_cons_self
  have hSpoken := (keeps_iff_of_blocked hParse hSecond hClass rfl rfl hBlocked).mp hKeeps
  rcases hSpoken with ⟨p, hp, -⟩ | ⟨e, he, hCovers⟩
  · cases hp
  · cases List.mem_singleton.mp he
    exact absurd hCovers (by decide)

/-- The blocklist does not come first: the selector `body` stays by the safelist that every build has,
though it is blocked. -/
theorem not_rejected_of_blocked :
    ¬ ∀ (u : Usage) (text : String) (cs : List ComplexSelector) (c : ComplexSelector) (t : Term),
      Selector.parse text = .ok cs → c ∈ cs → t ∈ c → t.isCheckable = true → t.matchesAny = false →
        u.isBlocked t.name = true → u.keeps text = false := by
  intro h
  let u : Usage := ⟨[], Safelist.extended {} [], [.literal "body"]⟩
  have hParse : Selector.parse "body" = .ok [[.tag "body"]] := by decide +kernel
  have hRemoved : u.keeps "body" = false :=
    h u "body" _ _ (.tag "body") hParse List.mem_cons_self List.mem_cons_self rfl rfl (by decide)
  have hKept : u.keeps "body" = true := by decide +kernel
  rw [hKept] at hRemoved
  cases hRemoved

end StyleSieve.Usage
