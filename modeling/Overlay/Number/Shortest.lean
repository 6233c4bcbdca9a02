import Overlay.Number.Binary64
import Overlay.Text.Radix

/-!
# The shortest decimal of a binary64 number

The decimals that round to a given number fill an interval around it, whose ends belong to it if the
mantissa is even. For one, two, … seventeen digits the two neighbours of the number on the grid of
that many digits are tried, and the first grid with a hit gives the decimal: the nearer of two hits,
and of two equally near ones the even one.
-/

namespace Overlay.Binary64

structure Decimal where
  coefficient : Nat
  exponent : Int
deriving DecidableEq, Repr

/-- The numerator and the denominator of `n * 10 ^ g`. -/
def tenfold (n : Nat) (g : Int) : Nat × Nat :=
  if 0 ≤ g then (n * Nat.pow 10 g.toNat, 1) else (n, Nat.pow 10 (-g).toNat)

def compareScaled (c : Nat) (g : Int) (a : Nat) (s : Int) : Ordering :=
  let (n, d) := tenfold c g
  let (n', d') := shifted a s
  compare (n * d') (n' * d)

/-- The distance between `c * 10 ^ g` and `a * 2 ^ s`, in units that depend on `g` and `s` only. -/
def distanceScaled (c : Nat) (g : Int) (a : Nat) (s : Int) : Nat :=
  let (n, d) := tenfold c g
  let (n', d') := shifted a s
  max (n * d') (n' * d) - min (n * d') (n' * d)

/-- The least `k` with `num / den < 10 ^ k`, for a positive ratio. -/
def decimalMagnitude (num den : Nat) : Int :=
  if den ≤ num then (Radix.digits 10 (num / den)).length
  else 1 - ((Radix.digits 10 ((den - 1) / num)).length : Int)

/-- Whether `c * 10 ^ g` rounds to the number. The interval is half as wide below a power of two. -/
def holds (x : Binary64) (c : Nat) (g : Int) : Bool :=
  let m := x.mantissa
  let below := if x.fraction.val = 0 ∧ 1 < x.exponent.val then 1 else 2
  let s := x.scale - 2
  match compareScaled c g (4 * m - below) s, compareScaled c g (4 * m + 2) s with
  | .lt, _ | _, .gt => false
  | .eq, _ | _, .eq => m % 2 = 0
  | .gt, .lt => true

/-- The better of the two neighbours on the grid `10 ^ g`, if one rounds to the number. -/
def onGrid? (x : Binary64) (g : Int) : Option Decimal :=
  let (n, d) := x.ratio
  let (t, u) := tenfold 1 g
  let low := n * u / (d * t)
  match x.holds low g, x.holds (low + 1) g with
  | false, false => none
  | true, false => some ⟨low, g⟩
  | false, true => some ⟨low + 1, g⟩
  | true, true =>
    match compare (distanceScaled low g x.mantissa x.scale)
        (distanceScaled (low + 1) g x.mantissa x.scale) with
    | .lt => some ⟨low, g⟩
    | .gt => some ⟨low + 1, g⟩
    | .eq => some ⟨low + low % 2, g⟩

/-- Tries grids of `digits`, `digits + 1`, … digits; `tries` of them. -/
def searchGrids (x : Binary64) (magnitude : Int) : Nat → Nat → Decimal
  | 0, _ => ⟨x.mantissa, 0⟩
  | tries + 1, digits =>
    match x.onGrid? (magnitude - digits) with
    | some d => d
    | none => searchGrids x magnitude tries (digits + 1)

/-- The decimal without trailing zeros in its coefficient; `steps` bounds their number. -/
def dropZeros : Nat → Decimal → Decimal
  | 0, d => d
  | steps + 1, d =>
    if d.coefficient % 10 = 0 ∧ d.coefficient ≠ 0 then
      dropZeros steps ⟨d.coefficient / 10, d.exponent + 1⟩
    else d

/-- The shortest decimal that rounds to the magnitude of the number. -/
def shortest (x : Binary64) : Decimal :=
  if x.isZero then ⟨0, 0⟩
  else dropZeros 20 (searchGrids x (decimalMagnitude x.ratio.1 x.ratio.2) 17 1)

end Overlay.Binary64
