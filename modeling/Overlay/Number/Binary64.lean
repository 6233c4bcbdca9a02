/-!
# Finite binary64 numbers

The finite numbers of the 64-bit binary floating-point format, as sign, biased exponent and
fraction, so that each number (and each of the two zeros) has one representation. All arithmetic is
exact arithmetic on ratios of natural numbers followed by one rounding to the nearest number, a tie
going to the even fraction; a ratio that rounds beyond the largest finite number has no result.
-/

namespace Overlay

/-- A finite number of the 64-bit format. -/
structure Binary64 where
  negative : Bool
  /-- The biased exponent; zero marks the numbers without a leading one bit. -/
  exponent : Fin 2047
  fraction : Fin 0x10000000000000
deriving DecidableEq, Repr

namespace Binary64

/-- The quotient rounded to the nearest integer, a tie to the even one. -/
def roundDiv (num den : Nat) : Nat :=
  let low := num / den
  let twice := 2 * (num % den)
  if twice < den then low
  else if den < twice then low + 1
  else low + low % 2

def zero (negative : Bool) : Binary64 :=
  ⟨negative, 0, 0⟩

def neg (x : Binary64) : Binary64 :=
  { x with negative := !x.negative }

def isZero (x : Binary64) : Bool :=
  x.exponent = 0 && x.fraction = 0

/-- The integer that the magnitude is a power of two times. -/
def mantissa (x : Binary64) : Nat :=
  if x.exponent.val = 0 then x.fraction.val else 0x10000000000000 + x.fraction.val

/-- The exponent of that power of two. -/
def scale (x : Binary64) : Int :=
  (max x.exponent.val 1 : Nat) - 1075

/-- The numerator and the denominator of `n * 2 ^ q`. -/
def shifted (n : Nat) (q : Int) : Nat × Nat :=
  if 0 ≤ q then (n <<< q.toNat, 1) else (n, 1 <<< (-q).toNat)

def ratio (x : Binary64) : Nat × Nat :=
  shifted x.mantissa x.scale

/-- The exponent of the largest power of two that is at most `num / den`, both positive. -/
def floorLog2 (num den : Nat) : Int :=
  let l : Int := num.log2 - den.log2
  let (n, d) := shifted 1 l
  if n * den ≤ num * d then l else l - 1

/-- Assembles `m * 2 ^ q` from a mantissa of at most 53 bits that has all 53 unless `q` is the least
exponent. -/
def assemble (negative : Bool) (m : Nat) (q : Int) : Option Binary64 :=
  if m < 0x10000000000000 then some ⟨negative, 0, Fin.ofNat _ m⟩
  else if h : (q + 1075).toNat < 2047 then some ⟨negative, ⟨(q + 1075).toNat, h⟩, Fin.ofNat _ m⟩
  else none

/-- The number nearest to the ratio, if that is finite. -/
def ofRatio (negative : Bool) (num den : Nat) : Option Binary64 :=
  if num = 0 then some (zero negative)
  else
    let q := max (floorLog2 num den - 52) (-1074)
    let (n, d) := shifted 1 q
    let m := roundDiv (num * d) (den * n)
    if m = 0x20000000000000 then assemble negative 0x10000000000000 (q + 1)
    else assemble negative m q

/-- The number nearest to a natural number below `2 ^ 64`, or any other whose rounding is finite. -/
def ofNat? (n : Nat) : Option Binary64 :=
  ofRatio false n 1

def mul? (x y : Binary64) : Option Binary64 :=
  ofRatio (x.negative != y.negative) (x.ratio.1 * y.ratio.1) (x.ratio.2 * y.ratio.2)

/-- The quotient by a number other than zero, rounded. -/
def div? (x y : Binary64) : Option Binary64 :=
  ofRatio (x.negative != y.negative) (x.ratio.1 * y.ratio.2) (x.ratio.2 * y.ratio.1)

/-- Equality of values: the two zeros are equal. -/
def equal (x y : Binary64) : Bool :=
  x = y || (x.isZero && y.isZero)

end Binary64

end Overlay
