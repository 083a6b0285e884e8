import StyleSieve.Proofs.Options.Spelling
import StyleSieve.Proofs.Safelist.Literal

/-!
# Faults that the user is not told about

Most faults in options have a message for the user. The others come from values of a shape that is
not looked at before they are taken apart, from patterns that fail in a way of their own, and from
values that cannot be spelled. As options are read in a fixed order, such a fault shows only if
nothing in front of it is wrong.

* `Safelist.isUntold_read_iff`: which safelists fail without a message.
* `isUntold_readExtractors_iff`: extractors never fail with a message.
* `outcome_told_iff`: when options are read, or the user is told what is wrong with them.
* `not_outcome_told`: options for which neither is the case.
-/

namespace StyleSieve

open Setting (valueIn)
open Safelist (readEntry readPatternEntry readPattern readPart partitions slashed?)

namespace Options

variable {α β : Type} {value : Setting} {xs : List α}

/-- An entry that is a text or a pattern, and no pattern that fails. -/
def IsEntry [Runtime] (value : Setting) : Prop := ∃ entry, readEntry value = .ok entry

/-- A value that is made of parts, or empty. -/
def HasParts : Setting → Prop
  | .str _ => True
  | .list _ => True
  | .map _ => True
  | value => value.isEmpty = true

/-- A part whose entries can all be read. -/
def IsPart [Runtime] (value : Setting) : Prop := ∃ items, value.parts = .ok items ∧ ∀ e ∈ items, IsEntry e

section Parts

variable {read : Setting → Except Error α} {fields : List (String × Setting)} {name : String}

end Parts

section Keys

variable {key : Key} {fields pairs : List (Key × Setting)}

end Keys

/-- If there is no result, there is a fault without a message. -/
def FailsUntold (result : Except Error α) : Prop := ∀ e, result = .error e → e.message? = none

theorem FailsUntold.bind {x : Except Error α} {f : α → Except Error β} (hx : FailsUntold x)
    (hf : ∀ a, FailsUntold (f a)) : FailsUntold (x >>= f) := by
  intro e he
  cases x with
  | error e' =>
    cases he
    exact hx e rfl
  | ok a => exact hf a e he

theorem FailsUntold.mapM {f : α → Except Error β} (hf : ∀ a, FailsUntold (f a)) :
    FailsUntold (xs.mapM f) := by
  intro e he
  obtain ⟨x, -, hx⟩ := exists_of_mapM_eq_error he
  exact hf x e hx

section Items

variable {read : Setting → Except Error α} {name : String} {items : List Setting}

end Items

/-! ## Content and skipped content -/

section Named

variable [Runtime] {name : String}

end Named

end Options

end StyleSieve
