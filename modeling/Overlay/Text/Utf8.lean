/-!
# UTF-8

Texts as bytes and back. A character takes one to four bytes; a byte sequence is refused if it is
cut short, longer than the character needs, or stands for a surrogate or a number beyond the last
code point, so the bytes of a text are its only accepted spelling.
-/

namespace Overlay.Utf8

def encode (s : List Char) : List UInt8 :=
  s.flatMap String.utf8EncodeChar

/-- The six bits that a continuation byte adds, if it is one. -/
def continuation (b : UInt8) : Option Nat :=
  if 0x80 ≤ b.toNat ∧ b.toNat < 0xC0 then some (b.toNat - 0x80) else none

/-- The character of a code point that needs at least as many bytes as were used for it. -/
def charFrom (least n : Nat) : Option Char :=
  if least ≤ n ∧ n.isValidChar then some (Char.ofNat n) else none

/-- The character at the head of the bytes and the bytes behind it. -/
def decodeChar : List UInt8 → Option (Char × List UInt8)
  | [] => none
  | a :: rest =>
    if a.toNat < 0x80 then some (Char.ofNat a.toNat, rest)
    else if a.toNat < 0xC0 then none
    else if a.toNat < 0xE0 then
      match rest with
      | b :: rest => do
        let b ← continuation b
        return (← charFrom 0x80 ((a.toNat - 0xC0) * 0x40 + b), rest)
      | _ => none
    else if a.toNat < 0xF0 then
      match rest with
      | b :: c :: rest => do
        let b ← continuation b
        let c ← continuation c
        return (← charFrom 0x800 (((a.toNat - 0xE0) * 0x40 + b) * 0x40 + c), rest)
      | _ => none
    else
      match rest with
      | b :: c :: d :: rest => do
        let b ← continuation b
        let c ← continuation c
        let d ← continuation d
        return (← charFrom 0x10000 ((((a.toNat - 0xF0) * 0x40 + b) * 0x40 + c) * 0x40 + d), rest)
      | _ => none

theorem length_lt_of_decodeChar {bs rest : List UInt8} {c : Char}
    (h : decodeChar bs = some (c, rest)) : rest.length < bs.length := by
  unfold decodeChar at h
  split at h
  · contradiction
  · split at h
    · simp only [Option.some.injEq, Prod.mk.injEq] at h
      simp [← h.2]
    split at h
    · contradiction
    split at h
    · split at h
      · simp only [Option.bind_eq_bind, Option.bind_eq_some_iff, Option.pure_def,
          Option.some.injEq, Prod.mk.injEq] at h
        obtain ⟨_, _, _, _, _, rfl⟩ := h
        simp only [List.length_cons]; omega
      · contradiction
    split at h
    · split at h
      · simp only [Option.bind_eq_bind, Option.bind_eq_some_iff, Option.pure_def,
          Option.some.injEq, Prod.mk.injEq] at h
        obtain ⟨_, _, _, _, _, _, _, rfl⟩ := h
        simp only [List.length_cons]; omega
      · contradiction
    split at h
    · simp only [Option.bind_eq_bind, Option.bind_eq_some_iff, Option.pure_def,
        Option.some.injEq, Prod.mk.injEq] at h
      obtain ⟨_, _, _, _, _, _, _, _, _, rfl⟩ := h
      simp only [List.length_cons]; omega
    · contradiction

def decode (bs : List UInt8) : Option (List Char) :=
  match bs with
  | [] => some []
  | b :: bs =>
    match _h : decodeChar (b :: bs) with
    | some (c, rest) => (decode rest).map (c :: ·)
    | none => none
termination_by bs.length
decreasing_by exact length_lt_of_decodeChar _h

end Overlay.Utf8
