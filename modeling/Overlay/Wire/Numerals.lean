import Overlay.Wire.Reader

/-!
# Numbers in a wire text

A number without fraction and exponent that fits a word of 64 bits is an integer. All others become
binary: the digits up to the point where the coefficient would outgrow an unsigned word of 64 bits
count, further ones before the point only raise the exponent and further ones behind it are dropped;
the coefficient is then multiplied or divided by a power of ten, each step rounding. A number beyond
the largest finite one is refused, and a tiny one becomes zero.
-/

namespace Overlay.Wire.Reader

/-- The coefficient may not reach this bound. -/
def wordLimit : Nat := 0x10000000000000000

def digitOf (b : UInt8) : Nat :=
  b.toNat - 0x30

/-- Takes digits into the coefficient while it stays below the limit. The number of digits taken and
of those left over come with it. -/
def absorb (n taken : Nat) : List UInt8 → Nat × Nat × Nat
  | [] => (n, taken, 0)
  | d :: ds =>
    if n * 10 + digitOf d < wordLimit then absorb (n * 10 + digitOf d) (taken + 1) ds
    else (n, taken, ds.length + 1)

/-- The largest power of ten that is applied in one step. -/
def largestStep : Nat := 308

def powerOfTen (k : Nat) : Option Binary64 :=
  Binary64.ofNat? (Nat.pow 10 k)

/-- Scales by `10 ^ exponent`; `none` if the result is not finite. Large negative exponents are
applied in steps, which stop at zero; `steps` bounds their number. -/
def scaleByTen (x : Binary64) (exponent : Int) : Nat → Option Binary64
  | 0 => some x
  | steps + 1 =>
    if exponent.natAbs ≤ largestStep then
      (powerOfTen exponent.natAbs).bind fun p =>
        if 0 ≤ exponent then x.mul? p else x.div? p
    else if x.isZero then some x
    else if 0 ≤ exponent then none
    else ((powerOfTen largestStep).bind x.div?).bind fun y =>
      scaleByTen y (exponent + largestStep) steps

/-- The binary number `coefficient * 10 ^ exponent` with a sign. -/
def realOf (negative : Bool) (coefficient : Nat) (exponent : Int) : Except Fault Number :=
  match (Binary64.ofNat? coefficient).bind fun x =>
      scaleByTen x exponent (exponent.natAbs / largestStep + 1) with
  | some x => .ok (.real (if negative then x.neg else x))
  | none => .error (.malformed .numberOutOfRange)

/-- The greatest exponent that is computed with. -/
def exponentLimit : Nat := 0x80000000

/-- Takes exponent digits while the value stays below the limit; `none` if it does not. -/
def exponentValue (n : Nat) : List UInt8 → Option Nat
  | [] => some n
  | d :: ds =>
    if n * 10 + digitOf d < exponentLimit then exponentValue (n * 10 + digitOf d) ds else none

/-- Splits off the digits at the front. -/
def spanDigits (bytes : List UInt8) : List UInt8 × List UInt8 :=
  (bytes.takeWhile isDigit, bytes.dropWhile isDigit)

/-- Splits off the sign of an exponent; true for a minus. -/
def exponentSign : List UInt8 → Bool × List UInt8
  | b :: rest =>
    if b = ascii '+' then (false, rest)
    else if b = ascii '-' then (true, rest)
    else (false, b :: rest)
  | [] => (false, [])

/-- Hands over a computed number together with the rest. -/
def withRest (rest : List UInt8) : Except Fault Number → Except Fault (Number × List UInt8)
  | .ok n => .ok (n, rest)
  | .error fault => .error fault

def exponentPart (negative : Bool) (coefficient : Nat) (exponent : Int) : Reader Number :=
  fun bytes =>
    let (minus, bytes) := exponentSign bytes
    let (ds, rest) := spanDigits bytes
    if ds.isEmpty then
      .error (if rest.isEmpty then .truncated .value else .malformed .invalidNumber)
    else
      match exponentValue 0 ds with
      | some e =>
        let scale := if minus then exponent - e else exponent + e
        withRest rest (realOf negative coefficient scale)
      | none =>
        if coefficient ≠ 0 ∧ !minus then .error (.malformed .numberOutOfRange)
        else .ok (.real (.zero negative), rest)

def isExponentMark (b : UInt8) : Bool :=
  b = ascii 'e' || b = ascii 'E'

/-- Reads on where an exponent may follow. -/
def exponentPart? (negative : Bool) (coefficient : Nat) (exponent : Int) : Reader Number :=
  fun bytes =>
    match bytes with
    | b :: rest =>
      if isExponentMark b then exponentPart negative coefficient exponent rest
      else withRest bytes (realOf negative coefficient exponent)
    | [] => withRest bytes (realOf negative coefficient exponent)

def fractionPart (negative : Bool) (coefficient : Nat) (exponent : Int) : Reader Number :=
  fun bytes =>
    let (ds, rest) := spanDigits bytes
    if ds.isEmpty then
      .error (if rest.isEmpty then .truncated .value else .malformed .invalidNumber)
    else
      let (n, taken, _) := absorb coefficient 0 ds
      exponentPart? negative n (exponent - taken) rest

/-- The integer of a sign and a coefficient, or the binary number if no word holds it. The negative
zero is binary, too. -/
def integerOf (negative : Bool) (coefficient : Nat) : Except Fault Number :=
  let n : Int := if negative then -coefficient else coefficient
  if h : (-0x8000000000000000 ≤ n ∧ n < 0x10000000000000000) ∧ ¬(negative ∧ coefficient = 0) then
    .ok (.whole n h.1)
  else realOf negative coefficient 0

/-- Reads on behind the digits before the point. -/
def afterInteger (negative : Bool) (coefficient leftOver : Nat) : Reader Number :=
  fun bytes =>
    match bytes with
    | b :: rest =>
      if b = ascii '.' then fractionPart negative coefficient leftOver rest
      else if isExponentMark b then exponentPart negative coefficient leftOver rest
      else if leftOver = 0 then withRest bytes (integerOf negative coefficient)
      else withRest bytes (realOf negative coefficient leftOver)
    | [] =>
      if leftOver = 0 then withRest bytes (integerOf negative coefficient)
      else withRest bytes (realOf negative coefficient leftOver)

/-- Reads a number whose sign is gone. A zero at the front stands alone. -/
def number (negative : Bool) : Reader Number :=
  fun bytes =>
    match bytes with
    | [] => .error (.truncated .value)
    | b :: rest =>
      if b = ascii '0' then
        if (rest.head?.map isDigit).getD false then .error (.malformed .invalidNumber)
        else afterInteger negative 0 0 rest
      else if isDigit b then
        let (ds, rest) := spanDigits (b :: rest)
        let (n, _, leftOver) := absorb 0 0 ds
        afterInteger negative n leftOver rest
      else .error (.malformed .invalidNumber)

/-! ## Numbers that nobody asked for -/

def skipExponent (bytes : List UInt8) : Except Fault (Unit × List UInt8) :=
  let (ds, rest) := spanDigits (exponentSign bytes).2
  if ds.isEmpty then .error (.malformed .invalidNumber) else .ok ((), rest)

def skipExponent? (bytes : List UInt8) : Except Fault (Unit × List UInt8) :=
  match bytes with
  | b :: rest => if isExponentMark b then skipExponent rest else .ok ((), bytes)
  | [] => .ok ((), bytes)

def skipAfterInteger (bytes : List UInt8) : Except Fault (Unit × List UInt8) :=
  match bytes with
  | b :: rest =>
    if b = ascii '.' then
      let (ds, rest) := spanDigits rest
      if ds.isEmpty then .error (.malformed .invalidNumber) else skipExponent? rest
    else skipExponent? bytes
  | [] => .ok ((), bytes)

/-- Skips a number whose sign is gone. Its size does not matter, and an early end is no more than an
invalid number. -/
def skipNumber : Reader Unit :=
  fun bytes =>
    match bytes with
    | [] => .error (.malformed .invalidNumber)
    | b :: rest =>
      if b = ascii '0' then
        if (rest.head?.map isDigit).getD false then .error (.malformed .invalidNumber)
        else skipAfterInteger rest
      else if isDigit b then skipAfterInteger (spanDigits (b :: rest)).2
      else .error (.malformed .invalidNumber)

end Overlay.Wire.Reader
