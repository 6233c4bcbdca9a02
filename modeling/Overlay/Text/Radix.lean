/-!
# Numerals in any base up to thirty-six

Digits are `0`–`9` and then the letters, written in lower case and read in either case. A numeral
that is read has at least one digit, may carry one leading plus sign and any number of leading
zeros, and must stay below a limit; of several defects the one met first from the left is reported.
The lemmas at the end tie the two directions together: the written form has its digits below the
base, and reading it digit by digit gives the number back.
-/

namespace Overlay.Radix

/-- The value of a digit, letters of either case counting on from ten. -/
def digitValue (c : Char) : Option Nat :=
  let n := c.toNat
  if 0x30 ≤ n ∧ n ≤ 0x39 then some (n - 0x30)
  else if 0x61 ≤ n ∧ n ≤ 0x7A then some (n - 0x57)
  else if 0x41 ≤ n ∧ n ≤ 0x5A then some (n - 0x37)
  else none

def digitIn (base : Nat) (c : Char) : Option Nat :=
  match digitValue c with
  | some d => if d < base then some d else none
  | none => none

/-- The digit of a value below thirty-six, in lower case. -/
def digitChar (d : Nat) : Char :=
  if d < 10 then Char.ofNat (0x30 + d) else Char.ofNat (0x57 + d)

theorem digitIn_digitChar {base d : Nat} (hd : d < base) (hb : base ≤ 36) :
    digitIn base (digitChar d) = some d := by
  have value : ∀ e < 36, digitValue (digitChar e) = some e := by decide
  simp [digitIn, value d (Nat.lt_of_lt_of_le hd hb), hd]

/-- The digits of a number, most significant first, without leading zeros; zero has one digit. -/
def digits (base n : Nat) : List Nat :=
  if n < base ∨ base < 2 then [n] else digits base (n / base) ++ [n % base]
termination_by n
decreasing_by exact Nat.div_lt_self (by omega) (by omega)

def ofDigits (base : Nat) (ds : List Nat) : Nat :=
  ds.foldl (fun n d => n * base + d) 0

def write (base n : Nat) : List Char :=
  (digits base n).map digitChar

def decimal (n : Nat) : String :=
  String.ofList (write 10 n)

/-- The numeral of a number with exactly `width` digits, leading zeros included. -/
def writePadded (base : Nat) : Nat → Nat → List Char
  | 0, _ => []
  | width + 1, n => writePadded base width (n / base) ++ [digitChar (n % base)]

/-- Why a text is no numeral. -/
inductive NumeralError where
  | empty
  | badDigit
  | tooLarge
deriving DecidableEq, Repr

def NumeralError.message : NumeralError → String
  | .empty => "cannot parse integer from empty string"
  | .badDigit => "invalid digit found in string"
  | .tooLarge => "number too large to fit in target type"

/-- Reads on from the value `n` of the digits before, stopping at the first digit that is none or
that takes the value to the limit. -/
def readDigits (base limit : Nat) : Nat → List Char → Except NumeralError Nat
  | n, [] => .ok n
  | n, c :: cs =>
    match digitIn base c with
    | none => .error .badDigit
    | some d =>
      if n * base + d < limit then readDigits base limit (n * base + d) cs else .error .tooLarge

/-- Reads a numeral whose value is below `limit`. A plus sign alone is no numeral. -/
def read (base limit : Nat) : List Char → Except NumeralError Nat
  | [] => .error .empty
  | ['+'] => .error .badDigit
  | '+' :: cs => readDigits base limit 0 cs
  | cs => readDigits base limit 0 cs

theorem digits_of_lt {base n : Nat} (h : n < base) : digits base n = [n] := by
  rw [digits]; simp [h]

theorem digits_of_le {base n : Nat} (hb : 2 ≤ base) (h : base ≤ n) :
    digits base n = digits base (n / base) ++ [n % base] := by
  rw [digits, if_neg (by omega)]

theorem digits_lt {base : Nat} (hb : 2 ≤ base) (n : Nat) : ∀ d ∈ digits base n, d < base := by
  induction n using Nat.strongRecOn with
  | _ n ih =>
    by_cases h : n < base
    · simp [digits_of_lt h, h]
    · rw [digits_of_le hb (Nat.le_of_not_lt h)]
      intro d hd
      rcases List.mem_append.1 hd with hd | hd
      · exact ih (n / base) (Nat.div_lt_self (by omega) hb) d hd
      · simp only [List.mem_singleton] at hd
        exact hd ▸ Nat.mod_lt _ (by omega)

theorem digits_ne_nil (base n : Nat) : digits base n ≠ [] := by
  rw [digits]; split <;> simp

theorem ofDigits_digits {base : Nat} (hb : 2 ≤ base) (n : Nat) :
    ofDigits base (digits base n) = n := by
  induction n using Nat.strongRecOn with
  | _ n ih =>
    by_cases h : n < base
    · simp [digits_of_lt h, ofDigits]
    · rw [digits_of_le hb (Nat.le_of_not_lt h), ofDigits, List.foldl_append]
      have := ih (n / base) (Nat.div_lt_self (by omega) hb)
      rw [ofDigits] at this
      simp only [this, List.foldl_cons, List.foldl_nil]
      rw [Nat.mul_comm]
      exact Nat.div_add_mod n base

theorem length_writePadded (base width n : Nat) : (writePadded base width n).length = width := by
  induction width generalizing n with
  | zero => rfl
  | succ width ih => simp [writePadded, ih]

end Overlay.Radix
