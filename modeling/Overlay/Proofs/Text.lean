import Overlay.Text.Radix
import Overlay.Text.Utf8

/-!
# Numerals and UTF-8, there and back

What is written in a base is read back as the same number, and the bytes of a text are decoded to
that text.
-/

namespace Overlay

/-! ## Numerals -/

namespace Radix

variable {base limit n width : Nat}

theorem readDigits_append (cs ds : List Char) :
    readDigits base limit n (cs ++ ds) =
      (readDigits base limit n cs).bind fun m => readDigits base limit m ds := by
  induction cs generalizing n with
  | nil => rfl
  | cons c cs ih =>
    simp only [List.cons_append, readDigits]
    split
    · rfl
    · split
      · exact ih
      · rfl

/-- One more digit behind what has been read. -/
theorem readDigits_digitChar {d : Nat} (hd : d < base) (hb : base ≤ 36)
    (hlt : n * base + d < limit) : readDigits base limit n [digitChar d] = .ok (n * base + d) := by
  simp [readDigits, digitIn_digitChar hd hb, hlt]

theorem readDigits_writePadded (hb : 2 ≤ base) (hb' : base ≤ 36) (hn : n < Nat.pow base width)
    (hlt : n < limit) : readDigits base limit 0 (writePadded base width n) = .ok n := by
  induction width generalizing n with
  | zero =>
    obtain rfl : n = 0 := Nat.lt_one_iff.1 hn
    rfl
  | succ width ih =>
    have hdiv : n / base < Nat.pow base width := Nat.div_lt_of_lt_mul (by rwa [Nat.mul_comm])
    have hle : n / base ≤ n := Nat.div_le_self n base
    have hback : n / base * base + n % base = n := Nat.div_add_mod' n base
    rw [writePadded, readDigits_append, ih hdiv (Nat.lt_of_le_of_lt hle hlt)]
    refine (readDigits_digitChar (Nat.mod_lt _ (by omega)) hb' ?_).trans ?_
    · rwa [hback]
    · rw [hback]

theorem readDigits_write (hb : 2 ≤ base) (hb' : base ≤ 36) (hlt : n < limit) :
    readDigits base limit 0 (write base n) = .ok n := by
  induction n using Nat.strongRecOn with
  | _ n ih =>
    by_cases h : n < base
    · rw [write, digits_of_lt h]
      refine (readDigits_digitChar h hb' ?_).trans ?_ <;> simp [hlt]
    · have hlt' : n / base < n := Nat.div_lt_self (by omega) hb
      have hback : n / base * base + n % base = n := Nat.div_add_mod' n base
      have hih := ih (n / base) hlt' (by omega)
      rw [write] at hih
      rw [write, digits_of_le hb (Nat.le_of_not_lt h), List.map_append, readDigits_append, hih]
      refine (readDigits_digitChar (Nat.mod_lt _ (by omega)) hb' ?_).trans ?_
      · rwa [hback]
      · rw [hback]

/-- A digit is neither a sign nor a colon. -/
theorem digitChar_ne {d : Nat} (hd : d < 36) : digitChar d ≠ '+' ∧ digitChar d ≠ ':' := by
  have h : ∀ e < 36, digitChar e ≠ '+' ∧ digitChar e ≠ ':' := by decide
  exact h d hd

theorem exists_digitChar_of_mem_write (hb : 2 ≤ base) {c : Char} (hc : c ∈ write base n) :
    ∃ d < base, c = digitChar d := by
  obtain ⟨d, hd, rfl⟩ := List.mem_map.1 hc
  exact ⟨d, digits_lt hb n d hd, rfl⟩

theorem exists_digitChar_of_mem_writePadded (hb : 2 ≤ base) {c : Char}
    (hc : c ∈ writePadded base width n) : ∃ d < base, c = digitChar d := by
  induction width generalizing n with
  | zero => contradiction
  | succ width ih =>
    rw [writePadded, List.mem_append, List.mem_singleton] at hc
    rcases hc with hc | rfl
    · exact ih hc
    · exact ⟨_, Nat.mod_lt _ (by omega), rfl⟩

theorem write_ne_nil : write base n ≠ [] := by
  rw [write, Ne, List.map_eq_nil_iff]
  exact digits_ne_nil base n

theorem read_write (hb : 2 ≤ base) (hb' : base ≤ 36) (hlt : n < limit) :
    read base limit (write base n) = .ok n := by
  cases hw : write base n with
  | nil => exact absurd hw write_ne_nil
  | cons c cs =>
    obtain ⟨d, hd, rfl⟩ : ∃ d < base, c = digitChar d :=
      exists_digitChar_of_mem_write hb (hw ▸ List.mem_cons_self)
    have hne := (digitChar_ne (Nat.lt_of_lt_of_le hd hb')).1
    rw [← readDigits_write hb hb' hlt, hw]
    unfold read
    split
    · contradiction
    · next heq => exact absurd (List.cons.inj heq).1 hne
    · next heq => exact absurd (List.cons.inj heq).1 hne
    · rfl

end Radix

/-! ## UTF-8 -/

namespace Utf8

variable {c : Char} {s t : List Char} {rest : List UInt8}

theorem toNat_lt (c : Char) : c.toNat < 0x110000 := by
  have h := c.valid
  simp only [Char.toNat, UInt32.isValidChar, Nat.isValidChar] at h ⊢
  omega

theorem charFrom_toNat {least : Nat} (h : least ≤ c.toNat) : charFrom least c.toNat = some c := by
  have hvalid : c.toNat.isValidChar := c.valid
  simp [charFrom, h, hvalid]

theorem utf8EncodeChar_of_ascii (h : c.toNat < 0x80) :
    String.utf8EncodeChar c = [UInt8.ofNat c.toNat] := by
  have hval : c.val.toNat = c.toNat := rfl
  unfold String.utf8EncodeChar
  simp only [hval]
  rw [if_pos (by omega)]

theorem continuation_ofNat {n : Nat} :
    continuation (UInt8.ofNat (n % 0x40 + 0x80)) = some (n % 0x40) := by
  have hlt : n % 0x40 < 0x40 := Nat.mod_lt _ (by decide)
  have hnat : (UInt8.ofNat (n % 0x40 + 0x80)).toNat = n % 0x40 + 0x80 := by
    rw [UInt8.toNat_ofNat']
    omega
  have hback : n % 0x40 + 0x80 - 0x80 = n % 0x40 := by omega
  simp only [continuation, hnat, hback]
  rw [if_pos (by omega)]

theorem decodeChar_utf8EncodeChar : decodeChar (String.utf8EncodeChar c ++ rest) = some (c, rest) := by
  have hlt := toNat_lt c
  have hval : c.val.toNat = c.toNat := rfl
  unfold String.utf8EncodeChar
  simp only [hval]
  split
  case isTrue h =>
    have hnat : (UInt8.ofNat c.toNat).toNat = c.toNat := by
      rw [UInt8.toNat_ofNat']
      omega
    simp only [List.cons_append, List.nil_append, decodeChar, hnat]
    rw [if_pos (by omega), Char.ofNat_toNat]
  split
  case isTrue h =>
    have hnat : (UInt8.ofNat (c.toNat / 64 % 0x20 + 0xc0)).toNat = c.toNat / 64 + 0xc0 := by
      rw [UInt8.toNat_ofNat']
      omega
    have hback : (c.toNat / 64 + 0xc0 - 0xc0) * 0x40 + c.toNat % 0x40 = c.toNat := by omega
    simp only [List.cons_append, List.nil_append, decodeChar, hnat, continuation_ofNat]
    rw [if_neg (by omega), if_neg (by omega), if_pos (by omega)]
    simp only [Option.bind_eq_bind, Option.bind_some, hback]
    rw [charFrom_toNat (by omega)]
    rfl
  split
  case isTrue h =>
    have hnat : (UInt8.ofNat (c.toNat / 4096 % 0x10 + 0xe0)).toNat = c.toNat / 4096 + 0xe0 := by
      rw [UInt8.toNat_ofNat']
      omega
    have hback : ((c.toNat / 4096 + 0xe0 - 0xe0) * 0x40 + c.toNat / 64 % 0x40) * 0x40 +
        c.toNat % 0x40 = c.toNat := by omega
    simp only [List.cons_append, List.nil_append, decodeChar, hnat, continuation_ofNat]
    rw [if_neg (by omega), if_neg (by omega), if_neg (by omega), if_pos (by omega)]
    simp only [Option.bind_eq_bind, Option.bind_some, hback]
    rw [charFrom_toNat (by omega)]
    rfl
  case isFalse h =>
    have hnat : (UInt8.ofNat (c.toNat / 262144 % 0x08 + 0xf0)).toNat = c.toNat / 262144 + 0xf0 := by
      rw [UInt8.toNat_ofNat']
      omega
    have hback : (((c.toNat / 262144 + 0xf0 - 0xf0) * 0x40 + c.toNat / 4096 % 0x40) * 0x40 +
        c.toNat / 64 % 0x40) * 0x40 + c.toNat % 0x40 = c.toNat := by omega
    simp only [List.cons_append, List.nil_append, decodeChar, hnat, continuation_ofNat]
    rw [if_neg (by omega), if_neg (by omega), if_neg (by omega), if_neg (by omega)]
    simp only [Option.bind_eq_bind, Option.bind_some, hback]
    rw [charFrom_toNat (by omega)]
    rfl

@[simp] theorem encode_nil : encode [] = [] := rfl

@[simp] theorem encode_cons : encode (c :: s) = String.utf8EncodeChar c ++ encode s := rfl

@[simp] theorem encode_append : encode (s ++ t) = encode s ++ encode t :=
  List.flatMap_append

theorem decode_of_decodeChar {bytes : List UInt8} (h : decodeChar bytes = some (c, rest)) :
    decode bytes = (decode rest).map (c :: ·) := by
  cases bytes with
  | nil => contradiction
  | cons b bs =>
    rw [decode]
    split
    · next heq =>
      rw [h, Option.some.injEq, Prod.mk.injEq] at heq
      rw [← heq.1, ← heq.2]
    · next heq =>
      rw [h] at heq
      contradiction

/-- **The bytes of a text are decoded to it.** -/
theorem decode_encode (s : List Char) : decode (encode s) = some s := by
  induction s with
  | nil =>
    rw [encode_nil, decode]
  | cons c s ih =>
    rw [encode_cons, decode_of_decodeChar decodeChar_utf8EncodeChar, ih]
    rfl

/-- The bytes of a character beyond ASCII are themselves beyond ASCII. -/
theorem le_of_mem_utf8EncodeChar (h : 0x80 ≤ c.toNat) {b : UInt8}
    (hb : b ∈ String.utf8EncodeChar c) : 0x80 ≤ b.toNat := by
  have hlt := toNat_lt c
  have hval : c.val.toNat = c.toNat := rfl
  unfold String.utf8EncodeChar at hb
  simp only [hval] at hb
  rw [if_neg (by omega)] at hb
  split at hb
  · simp only [List.mem_cons, List.not_mem_nil, or_false] at hb
    rcases hb with rfl | rfl <;> rw [UInt8.toNat_ofNat'] <;> omega
  · split at hb
    · simp only [List.mem_cons, List.not_mem_nil, or_false] at hb
      rcases hb with rfl | rfl | rfl <;> rw [UInt8.toNat_ofNat'] <;> omega
    · simp only [List.mem_cons, List.not_mem_nil, or_false] at hb
      rcases hb with rfl | rfl | rfl | rfl <;> rw [UInt8.toNat_ofNat'] <;> omega

end Utf8

end Overlay
