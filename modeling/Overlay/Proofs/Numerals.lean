import Overlay.Proofs.Text

/-!
# Numerals in any spelling

A numeral is an optional plus sign and one or more digits of the base, letters in either case and
any number of zeros in front. `Numeral` says so without the reader, and `Flaw` says what is wrong
with a text that is none below a limit: what is met first on the way from the left, be it a
character that is no digit or the digit that takes the value to the limit. The reader gives a number
just if the text is a numeral of it (`read_eq_ok_iff`), and a defect just if that is the flaw
(`read_eq_error_iff`).
-/

namespace Overlay.Radix

variable {base limit m n d : Nat} {c : Char} {s cs rest : List Char} {e : NumeralError}

/-! ## Digits -/

def alphabet : List Char :=
  "0123456789abcdefghijklmnopqrstuvwxyz".toList

/-- Whether a character, in either case, is the digit of a value in a base. -/
def IsDigit (base : Nat) (c : Char) (d : Nat) : Prop :=
  d < base ∧ alphabet[d]? = some c.toLower

theorem toNat_toLower (c : Char) :
    c.toLower.toNat = if 0x41 ≤ c.toNat ∧ c.toNat ≤ 0x5A then c.toNat + 0x20 else c.toNat := by
  have hcapital : (c.val ≥ 'A'.val ∧ c.val ≤ 'Z'.val) ↔ 0x41 ≤ c.toNat ∧ c.toNat ≤ 0x5A := by
    simp only [ge_iff_le, UInt32.le_iff_toNat_le]
    rfl
  unfold Char.toLower
  split
  · next h =>
    have hc := hcapital.1 h
    have hlt : c.toNat + 0x20 < 2 ^ 32 := by omega
    rw [if_pos hc]
    change (c.val + 0x20).toNat = c.toNat + 0x20
    rw [UInt32.toNat_add]
    exact Nat.mod_eq_of_lt hlt
  · next h => rw [if_neg (mt hcapital.2 h)]

theorem toNat_digitChar (hd : d < 36) :
    (digitChar d).toNat = if d < 10 then 0x30 + d else 0x57 + d := by
  have hall : ∀ e < 36, (digitChar e).toNat = if e < 10 then 0x30 + e else 0x57 + e := by decide
  exact hall d hd

theorem alphabet_eq_some_iff : alphabet[d]? = some c ↔ d < 36 ∧ c = digitChar d := by
  have hall : ∀ e < 36, alphabet[e]? = some (digitChar e) := by decide
  by_cases hd : d < 36
  · simp [hall d hd, hd, eq_comm]
  · have hnone : alphabet[d]? = none := List.getElem?_eq_none (Nat.le_of_not_lt hd)
    simp [hnone, hd]

/-- The reader knows the digits of the alphabet and no others. -/
theorem digitValue_eq_some_iff : digitValue c = some d ↔ alphabet[d]? = some c.toLower := by
  rw [alphabet_eq_some_iff]
  have hlower := toNat_toLower c
  constructor
  · intro h
    have hd : d < 36 ∧ c.toLower.toNat = if d < 10 then 0x30 + d else 0x57 + d := by
      simp only [digitValue] at h
      grind
    refine ⟨hd.1, ?_⟩
    apply Char.toNat_inj.1
    rw [hd.2, toNat_digitChar hd.1]
  · rintro ⟨hd, h⟩
    have hc := congrArg Char.toNat h
    rw [hlower, toNat_digitChar hd] at hc
    simp only [digitValue]
    grind

theorem digitIn_eq_some_iff : digitIn base c = some d ↔ IsDigit base c d := by
  rw [IsDigit, ← digitValue_eq_some_iff, digitIn]
  cases digitValue c with
  | none => simp
  | some e =>
    simp only [Option.ite_none_right_eq_some, Option.some.injEq]
    constructor
    · rintro ⟨he, rfl⟩
      exact ⟨he, rfl⟩
    · rintro ⟨hd, rfl⟩
      exact ⟨hd, rfl⟩

theorem digitIn_eq_none_iff : digitIn base c = none ↔ ∀ d, ¬IsDigit base c d := by
  rw [Option.eq_none_iff_forall_ne_some]
  exact forall_congr' fun d => not_congr digitIn_eq_some_iff

/-! ## Digits in a row -/

/-- Whether characters are the digits of a number, most significant first. -/
inductive Denotes (base : Nat) : List Char → Nat → Prop
  | nil : Denotes base [] 0
  | concat {cs : List Char} {c : Char} {n d : Nat} : Denotes base cs n → IsDigit base c d →
      Denotes base (cs ++ [c]) (n * base + d)

theorem Denotes.exists_isDigit (h : Denotes base cs n) (hc : c ∈ cs) : ∃ d, IsDigit base c d := by
  induction h with
  | nil => contradiction
  | concat _ hd ih =>
    rcases List.mem_append.1 hc with hc | hc
    · exact ih hc
    · obtain rfl := List.mem_singleton.1 hc
      exact ⟨_, hd⟩

/-- One more digit never makes the number smaller. -/
theorem IsDigit.le (h : IsDigit base c d) : n ≤ n * base + d :=
  Nat.le_add_right_of_le (Nat.le_mul_of_pos_right n (Nat.zero_lt_of_lt h.1))

theorem readDigits_cons (h : IsDigit base c d) :
    readDigits base limit n (c :: rest) =
      if n * base + d < limit then readDigits base limit (n * base + d) rest
      else .error .tooLarge := by
  rw [readDigits, digitIn_eq_some_iff.2 h]

theorem readDigits_of_denotes (h : Denotes base cs n) (hn : n < limit) :
    readDigits base limit 0 cs = .ok n := by
  induction h with
  | nil => rfl
  | concat _ hd ih =>
    rw [readDigits_append, ih (Nat.lt_of_le_of_lt hd.le hn)]
    change readDigits base limit _ _ = _
    rw [readDigits_cons hd, if_pos hn, readDigits]

theorem readDigits_append_of_denotes (h : Denotes base cs n) (hn : n < limit) :
    readDigits base limit 0 (cs ++ rest) = readDigits base limit n rest := by
  rw [readDigits_append, readDigits_of_denotes h hn]
  rfl

/-- Once the value has come to the limit, it does not matter what follows. -/
theorem readDigits_append_of_le (hlimit : 0 < limit) (h : Denotes base cs n) (hn : limit ≤ n) :
    readDigits base limit 0 (cs ++ rest) = .error .tooLarge := by
  induction h generalizing rest with
  | nil => omega
  | @concat cs c n d h hd ih =>
    rw [List.append_assoc]
    by_cases hbefore : n < limit
    · rw [readDigits_append_of_denotes h hbefore, List.singleton_append, readDigits_cons hd,
        if_neg (by omega)]
    · exact ih (by omega)

/-- What is wrong with a row of digits, read from the left. -/
inductive RowFlaw (base limit : Nat) : List Char → NumeralError → Prop
  | badDigit {cs rest : List Char} {c : Char} {n : Nat} : Denotes base cs n → n < limit →
      (∀ d, ¬IsDigit base c d) → RowFlaw base limit (cs ++ c :: rest) .badDigit
  | tooLarge {cs rest : List Char} {n : Nat} : Denotes base cs n → limit ≤ n →
      RowFlaw base limit (cs ++ rest) .tooLarge

/-- Wherever the reader is on its way, the rest comes to a number or to a flaw of the whole row. -/
theorem readDigits_cases (rest : List Char) (h : Denotes base cs n) (hn : n < limit) :
    (∃ m < limit, Denotes base (cs ++ rest) m ∧ readDigits base limit n rest = .ok m) ∨
      ∃ e, RowFlaw base limit (cs ++ rest) e ∧ readDigits base limit n rest = .error e := by
  induction rest generalizing cs n with
  | nil => exact .inl ⟨n, hn, by rwa [List.append_nil], rfl⟩
  | cons c rest ih =>
    cases hc : digitIn base c with
    | none =>
      refine .inr ⟨_, .badDigit h hn (digitIn_eq_none_iff.1 hc), ?_⟩
      rw [readDigits, hc]
    | some d =>
      have hd := digitIn_eq_some_iff.1 hc
      rw [readDigits_cons hd, List.append_cons]
      by_cases hlt : n * base + d < limit
      · rw [if_pos hlt]
        exact ih (h.concat hd) hlt
      · rw [if_neg hlt]
        exact .inr ⟨_, .tooLarge (h.concat hd) (Nat.le_of_not_lt hlt), rfl⟩

theorem readDigits_eq_ok_iff (hlimit : 0 < limit) :
    readDigits base limit 0 s = .ok n ↔ Denotes base s n ∧ n < limit := by
  have hnil : Denotes base [] 0 := .nil
  constructor
  · intro h
    rcases readDigits_cases s hnil hlimit with ⟨m, hm, hs, hread⟩ | ⟨e, -, hread⟩
    · rw [h] at hread
      cases hread
      exact ⟨hs, hm⟩
    · rw [h] at hread
      contradiction
  · rintro ⟨hs, hn⟩
    exact readDigits_of_denotes hs hn

theorem readDigits_eq_error_iff (hlimit : 0 < limit) :
    readDigits base limit 0 s = .error e ↔ RowFlaw base limit s e := by
  have hnil : Denotes base [] 0 := .nil
  constructor
  · intro h
    rcases readDigits_cases s hnil hlimit with ⟨m, -, -, hread⟩ | ⟨e, he, hread⟩
    · rw [h] at hread
      contradiction
    · rw [h] at hread
      cases hread
      exact he
  · intro h
    cases h with
    | badDigit h hn hc =>
      rw [readDigits_append_of_denotes h hn, readDigits, digitIn_eq_none_iff.2 hc]
    | tooLarge h hn => exact readDigits_append_of_le hlimit h hn

/-! ## Numerals -/

def unsigned : List Char → List Char
  | '+' :: cs => cs
  | cs => cs

/-- Whether a text is a numeral of a number: one plus sign or none, and at least one digit. -/
def Numeral (base : Nat) (s : List Char) (n : Nat) : Prop :=
  unsigned s ≠ [] ∧ Denotes base (unsigned s) n

/-- What is wrong with a text that is no numeral below a limit. -/
inductive Flaw (base limit : Nat) : List Char → NumeralError → Prop
  | empty : Flaw base limit [] .empty
  | lonePlus : Flaw base limit ['+'] .badDigit
  | row {s : List Char} {e : NumeralError} : unsigned s ≠ [] → RowFlaw base limit (unsigned s) e →
      Flaw base limit s e

theorem read_eq_readDigits (h : unsigned s ≠ []) :
    read base limit s = readDigits base limit 0 (unsigned s) := by
  unfold read
  split
  · exact absurd rfl h
  · exact absurd rfl h
  · rfl
  · next hplus =>
    rw [unsigned]
    exact hplus

/-- Without digits a text is empty or a plus sign alone. -/
theorem unsigned_eq_nil_iff : unsigned s = [] ↔ s = [] ∨ s = ['+'] := by
  constructor
  · intro h
    unfold unsigned at h
    split at h
    · rw [h]
      exact .inr rfl
    · exact .inl h
  · rintro (rfl | rfl) <;> rfl

/-- **The numbers that are read.** -/
theorem read_eq_ok_iff (hlimit : 0 < limit) :
    read base limit s = .ok n ↔ Numeral base s n ∧ n < limit := by
  by_cases h : unsigned s = []
  · have hnone : ¬Numeral base s n := fun hs => hs.1 h
    rcases unsigned_eq_nil_iff.1 h with rfl | rfl <;> simp [read, hnone]
  · rw [read_eq_readDigits h, readDigits_eq_ok_iff hlimit, Numeral]
    simp [h]

/-- **The defects that are found.** -/
theorem read_eq_error_iff (hlimit : 0 < limit) :
    read base limit s = .error e ↔ Flaw base limit s e := by
  by_cases h : unsigned s = []
  · rcases unsigned_eq_nil_iff.1 h with rfl | rfl
    · constructor
      · rintro ⟨⟩
        exact .empty
      · intro hs
        cases hs with
        | empty => rfl
        | row hne => exact absurd rfl hne
    · constructor
      · rintro ⟨⟩
        exact .lonePlus
      · intro hs
        cases hs with
        | lonePlus => rfl
        | row hne => exact absurd rfl hne
  · rw [read_eq_readDigits h, readDigits_eq_error_iff hlimit]
    constructor
    · intro hs
      exact .row h hs
    · intro hs
      cases hs with
      | empty => exact absurd rfl h
      | lonePlus => exact absurd rfl h
      | row _ hs => exact hs

theorem Numeral.exists_isDigit (h : Numeral base s n) (hc : c ∈ s) :
    c = '+' ∨ ∃ d, IsDigit base c d := by
  obtain ⟨-, h⟩ := h
  unfold unsigned at h
  split at h
  · rcases List.mem_cons.1 hc with rfl | hc
    · exact .inl rfl
    · exact .inr (h.exists_isDigit hc)
  · exact .inr (h.exists_isDigit hc)

end Overlay.Radix
