/-!
# Binary floating-point numbers

Numbers of the 64-bit binary format, kept as exact dyadic rationals. `ofDecimal` reads a
decimal as the nearest such number, ties going to the even mantissa; `digits` finds the
fewest decimal digits that read back as the same number, and of those the nearest.
-/

namespace StyleSieve

/-- A number of the 64-bit binary format; a finite one has the value
`± mantissa * 2 ^ exponent`, with the mantissa below `2 ^ 53`. -/
inductive Binary64 where
  | nan
  | infinite (negative : Bool)
  | finite (negative : Bool) (mantissa : Nat) (exponent : Int)
  deriving DecidableEq

namespace Binary64

/-- The quotient rounded to the nearest integer, a half going to the even neighbour. -/
def roundDiv (num den : Nat) : Nat :=
  let q := num / den
  let r := num % den
  if 2 * r < den then q
  else if den < 2 * r then q + 1
  else if q % 2 == 0 then q else q + 1

/-- The fraction `num * 2 ^ -q / den` as a pair of naturals. -/
def scale (num den : Nat) (q : Int) : Nat × Nat :=
  if 0 ≤ q then (num, den * Nat.pow 2 q.toNat) else (num * Nat.pow 2 (-q).toNat, den)

/-- The number nearest to the positive fraction `num / den`. -/
def ofFraction (negative : Bool) (num den : Nat) : Binary64 :=
  let guess : Int := (num.log2 : Int) - (den.log2 : Int) - 53
  let widen (q : Int) : Int :=
    let (n, d) := scale num den q
    if n < d * Nat.pow 2 53 then q else q + 1
  let q := max (widen (widen guess)) (-1074)
  let (n, d) := scale num den q
  let m := roundDiv n d
  let (m, q) := if m == Nat.pow 2 53 then (Nat.pow 2 52, q + 1) else (m, q)
  if 971 < q then .infinite negative else .finite negative m q

/-- The number nearest to `± m * 10 ^ e`. -/
def ofDecimal (negative : Bool) (m : Nat) (e : Int) : Binary64 :=
  let size : Int := (Nat.toDigits 10 m).length + e
  if m == 0 || size < -400 then .finite negative 0 (-1074)
  else if 400 < size then .infinite negative
  else if 0 ≤ e then ofFraction negative (m * Nat.pow 10 e.toNat) 1
  else ofFraction negative m (Nat.pow 10 (-e).toNat)

/-- Zero of either sign. -/
def isZero : Binary64 → Bool
  | .finite _ 0 _ => true
  | _ => false

/-- The two neighbours of `num / den` on the grid of multiples of `10 ^ k`, nearest first; of
two equally near ones the even multiple comes first. -/
def neighbours (num den : Nat) (k : Int) : List Nat :=
  let (n, d) :=
    if 0 ≤ k then (num, den * Nat.pow 10 k.toNat) else (num * Nat.pow 10 (-k).toNat, den)
  let lo := n / d
  let near := roundDiv n d
  if near == lo then [lo, lo + 1] else [lo + 1, lo]

/-- The digits of the first neighbour, over the grids from `k` downwards, that reads back as
the positive number `± m * 2 ^ q`; `fuel` grids are tried. -/
def digitsFrom (m : Nat) (q : Int) : Nat → Int → Nat × Int
  | 0, k => (m, k)
  | fuel + 1, k =>
    let (num, den) :=
      if 0 ≤ q then (m * Nat.pow 2 q.toNat, 1) else (m, Nat.pow 2 (-q).toNat)
    let same (c : Nat) : Bool := ofDecimal false c k == ofFraction false num den
    match (neighbours num den k).find? same with
    | some c => (c, k)
    | none => digitsFrom m q fuel (k - 1)

/-- The fewest digits, as an integer, and the power of ten of the last of them. -/
def digits (m : Nat) (q : Int) : Nat × Int :=
  digitsFrom m q 700 (if 0 ≤ q then 309 else 20)

/-- Positional notation where the decimal point falls within sixteen digits of the first
digit or at most three zeros before it, else exponents of at least two digits; a whole number
in positional notation ends in `.0`. -/
def render : Binary64 → String
  | .nan => "nan"
  | .infinite negative => if negative then "-inf" else "inf"
  | .finite negative m q =>
    let sign := if negative then "-" else ""
    if m == 0 then sign ++ "0.0"
    else
      let (c, k) := digits m q
      let ds := (Nat.toDigits 10 c).reverse.dropWhile (· == '0') |>.reverse
      let point : Int := (Nat.toDigits 10 c).length + k
      let n : Int := ds.length
      if -4 < point && point ≤ 16 then
        if point ≤ 0 then
          sign ++ "0." ++ String.ofList (List.replicate (-point).toNat '0' ++ ds)
        else if n ≤ point then
          sign ++ String.ofList (ds ++ List.replicate (point - n).toNat '0') ++ ".0"
        else
          sign ++ String.ofList (ds.take point.toNat) ++ "." ++ String.ofList (ds.drop point.toNat)
      else
        let e := point - 1
        let mark := if e < 0 then "e-" else "e+"
        let eds := Nat.toDigits 10 e.natAbs
        let eds := if eds.length < 2 then '0' :: eds else eds
        let frac := if ds.length ≤ 1 then "" else "." ++ String.ofList (ds.drop 1)
        sign ++ String.ofList (ds.take 1) ++ frac ++ mark ++ String.ofList eds

end Binary64

end StyleSieve
