import Overlay.Json.Printer
import Overlay.Proofs.Text
import Overlay.Wire.Scalar

/-!
# Tokens that have been written

The readers of `Overlay.Wire` take what `Json.text` writes off the front of the bytes and stop where
it ends. A number shows its end only by what stands behind it, so the rest is required to begin with
a comma, a closing bracket or a blank.
-/

namespace Overlay.Wire.Reader

variable {c : Char} {s : List Char} {b : UInt8} {rest bytes : List UInt8} {n : Nat}

/-! ## ASCII -/

theorem toNat_ascii (h : c.toNat < 0x80) : (ascii c).toNat = c.toNat := by
  rw [ascii, UInt8.toNat_ofNat']
  omega

theorem encode_cons_ascii (h : c.toNat < 0x80) :
    Utf8.encode (c :: s) = ascii c :: Utf8.encode s := by
  rw [Utf8.encode_cons, Utf8.utf8EncodeChar_of_ascii h]
  rfl

theorem look_cons {atEnd : Unfinished} (h : isSpace b = false) :
    look atEnd (b :: rest) = .ok (b, b :: rest) := by
  simp [look, h]

theorem look?_cons (h : isSpace b = false) : look? (b :: rest) = .ok (some b, b :: rest) := by
  simp [look?, h]

/-! ## Strings -/

theorem prepend_ok {xs ys : List UInt8} :
    prepend bytes (.ok (xs, ys)) = .ok (bytes ++ xs, ys) := rfl

theorem prepend_prepend {xs ys : List UInt8} (r : Except Fault (List UInt8 × List UInt8)) :
    prepend xs (prepend ys r) = prepend (xs ++ ys) r := by
  cases r with
  | ok p => simp [prepend]
  | error fault => rfl

theorem stringBytes_plain (hq : b ≠ quote) (hb : b ≠ backslash) (hc : ¬b < 0x20) :
    stringBytes (b :: rest) = prepend [b] (stringBytes rest) := by
  rw [stringBytes.eq_def]
  simp only [if_neg hq, if_neg hb, if_neg hc]

theorem stringBytes_escape {e : UInt8} (h : plainEscape e = some b) :
    stringBytes (backslash :: e :: rest) = prepend [b] (stringBytes rest) := by
  have hne : backslash ≠ quote := by decide
  rw [stringBytes.eq_def]
  simp only [if_neg hne, if_true, h]

/-- An escaped code point that is not half of a pair. -/
theorem stringBytes_unit {h₁ h₂ h₃ h₄ : UInt8} (h : hexUnit h₁ h₂ h₃ h₄ = some n)
    (hn : n < 0xD800 ∨ 0xDFFF < n) :
    stringBytes (backslash :: ascii 'u' :: h₁ :: h₂ :: h₃ :: h₄ :: rest) =
      prepend (codePointBytes n) (stringBytes rest) := by
  have hplain : plainEscape (ascii 'u') = none := by decide
  have htrail : isTrailing n = false := by
    simp only [isTrailing, Bool.and_eq_false_iff, decide_eq_false_iff_not]
    omega
  have hlead : isLeading n = false := by
    simp only [isLeading, Bool.and_eq_false_iff, decide_eq_false_iff_not]
    omega
  have hne : backslash ≠ quote := by decide
  rw [stringBytes.eq_def]
  simp only [if_neg hne, hplain, h, htrail, hlead, if_true, if_false, Bool.false_eq_true]

/-- An escaped pair is one code point. -/
theorem stringBytes_pair {h₁ h₂ h₃ h₄ g₁ g₂ g₃ g₄ : UInt8} {m : Nat}
    (hn : hexUnit h₁ h₂ h₃ h₄ = some n) (hm : hexUnit g₁ g₂ g₃ g₄ = some m)
    (hlead : isLeading n = true) (htrail : isTrailing m = true) :
    stringBytes (backslash :: ascii 'u' :: h₁ :: h₂ :: h₃ :: h₄ ::
        backslash :: ascii 'u' :: g₁ :: g₂ :: g₃ :: g₄ :: rest) =
      prepend (codePointBytes (joinPair n m)) (stringBytes rest) := by
  have hplain : plainEscape (ascii 'u') = none := by decide
  have hnot : isTrailing n = false := by
    simp only [isLeading, Bool.and_eq_true, decide_eq_true_eq] at hlead
    simp only [isTrailing, Bool.and_eq_false_iff, decide_eq_false_iff_not]
    omega
  have hne : backslash ≠ quote := by decide
  rw [stringBytes.eq_def]
  simp only [if_neg hne, hplain, hn, hm, hnot, hlead, htrail, if_true, if_false, Bool.false_eq_true]

theorem stringBytes_plains (h : ∀ b ∈ bytes, 0x80 ≤ b.toNat) :
    stringBytes (bytes ++ rest) = prepend bytes (stringBytes rest) := by
  induction bytes with
  | nil =>
    cases hr : stringBytes rest with
    | ok p => simp [prepend, hr]
    | error fault => simp [prepend, hr]
  | cons b bytes ih =>
    have hb := h b List.mem_cons_self
    have hne : ∀ d : UInt8, d.toNat < 0x80 → b ≠ d := by
      rintro d hd rfl
      omega
    have hlt : ¬b < 0x20 := by
      rw [UInt8.lt_iff_toNat_lt]
      have : (0x20 : UInt8).toNat = 0x20 := rfl
      omega
    rw [List.cons_append, stringBytes_plain (hne _ (by decide)) (hne _ (by decide)) hlt,
      ih fun d hd => h d (List.mem_cons_of_mem _ hd), prepend_prepend]
    rfl

/-- A control character is written as four hexadecimal digits. -/
theorem hexUnit_of_control (h : n < 0x20) :
    ∃ h₁ h₂ h₃ h₄, Utf8.encode (Radix.writePadded 16 4 n) = [h₁, h₂, h₃, h₄] ∧
      hexUnit h₁ h₂ h₃ h₄ = some n := by
  have hall : ∀ n < 0x20, let bytes := Utf8.encode (Radix.writePadded 16 4 n)
      bytes = [bytes.getD 0 0, bytes.getD 1 0, bytes.getD 2 0, bytes.getD 3 0] ∧
        hexUnit (bytes.getD 0 0) (bytes.getD 1 0) (bytes.getD 2 0) (bytes.getD 3 0) = some n := by
    decide
  obtain ⟨hbytes, hunit⟩ := hall n h
  exact ⟨_, _, _, _, hbytes, hunit⟩

/-- A character that stands for itself. -/
theorem stringBytes_char (hq : c.toNat ≠ 0x22) (hb : c.toNat ≠ 0x5C) (hc : 0x20 ≤ c.toNat) :
    stringBytes (String.utf8EncodeChar c ++ rest) =
      prepend (String.utf8EncodeChar c) (stringBytes rest) := by
  by_cases hascii : c.toNat < 0x80
  · have hnat : (UInt8.ofNat c.toNat).toNat = c.toNat := toNat_ascii hascii
    have hne : ∀ d : UInt8, c.toNat ≠ d.toNat → UInt8.ofNat c.toNat ≠ d := by
      rintro d hd rfl
      exact hd hnat.symm
    rw [Utf8.utf8EncodeChar_of_ascii hascii]
    refine stringBytes_plain (hne _ hq) (hne _ hb) ?_
    rw [UInt8.lt_iff_toNat_lt, hnat]
    exact Nat.not_lt.2 hc
  · exact stringBytes_plains fun b hb => Utf8.le_of_mem_utf8EncodeChar (by omega) hb

theorem stringBytes_escaped :
    stringBytes (Utf8.encode (Json.escaped c) ++ rest) =
      prepend (String.utf8EncodeChar c) (stringBytes rest) := by
  -- The seven characters with an escape of one letter.
  have letter : ∀ (e : Char) (d : UInt8), e.toNat < 0x80 → plainEscape (ascii e) = some d →
      c.toNat < 0x80 → d.toNat = c.toNat →
      stringBytes (Utf8.encode ['\\', e] ++ rest) =
        prepend (String.utf8EncodeChar c) (stringBytes rest) := by
    intro e d he hplain hc hd
    have hd' : UInt8.ofNat c.toNat = d := by rw [← hd, UInt8.ofNat_toNat]
    rw [encode_cons_ascii (by decide), encode_cons_ascii he, Utf8.utf8EncodeChar_of_ascii hc, hd']
    exact stringBytes_escape hplain
  unfold Json.escaped
  split
  case h_1 h => exact letter '"' quote (by decide) (by decide) (by omega) h.symm
  case h_2 h => exact letter '\\' backslash (by decide) (by decide) (by omega) h.symm
  case h_3 h => exact letter 'b' 0x08 (by decide) (by decide) (by omega) h.symm
  case h_4 h => exact letter 't' 0x09 (by decide) (by decide) (by omega) h.symm
  case h_5 h => exact letter 'n' 0x0A (by decide) (by decide) (by omega) h.symm
  case h_6 h => exact letter 'f' 0x0C (by decide) (by decide) (by omega) h.symm
  case h_7 h => exact letter 'r' 0x0D (by decide) (by decide) (by omega) h.symm
  case h_8 hq hb _ _ _ _ _ =>
    split
    case isTrue hlt =>
      obtain ⟨h₁, h₂, h₃, h₄, henc, hunit⟩ := hexUnit_of_control hlt
      rw [encode_cons_ascii (by decide), encode_cons_ascii (by decide), henc]
      refine (stringBytes_unit hunit (.inl (by omega))).trans ?_
      rw [codePointBytes, Char.ofNat_toNat]
      rfl
    case isFalse hlt =>
      rw [Utf8.encode_cons, Utf8.encode_nil, List.append_nil]
      exact stringBytes_char hq hb (Nat.not_lt.1 hlt)

theorem stringBytes_encode :
    stringBytes (Utf8.encode (s.flatMap Json.escaped) ++ quote :: rest) =
      .ok (Utf8.encode s, rest) := by
  induction s with
  | nil =>
    rw [List.flatMap_nil, Utf8.encode_nil, List.nil_append, stringBytes.eq_def]
    simp
  | cons c s ih =>
    rw [List.flatMap_cons, Utf8.encode_append, List.append_assoc, stringBytes_escaped, ih,
      prepend_ok]
    rfl

theorem stringBody_of_stringBytes (h : stringBytes bytes = .ok (Utf8.encode s, rest)) :
    stringBody bytes = .ok (String.ofList s, rest) := by
  rw [stringBody, h]
  simp only [Utf8.decode_encode]

/-- What is written of a string behind its opening quote is read as the string. -/
theorem stringBody_encode (s : String) :
    stringBody (Utf8.encode (s.toList.flatMap Json.escaped ++ ['"']) ++ rest) = .ok (s, rest) := by
  have hquote : Utf8.encode (s.toList.flatMap Json.escaped ++ ['"']) ++ rest =
      Utf8.encode (s.toList.flatMap Json.escaped) ++ quote :: rest := by
    rw [Utf8.encode_append, List.append_assoc]
    rfl
  rw [hquote, stringBody_of_stringBytes stringBytes_encode, String.ofList_toList]

/-! ## Numbers -/

/-- The rest of a text behind a value: nothing, a comma, a closing bracket or a blank. -/
def Closes : List UInt8 → Prop
  | [] => True
  | b :: _ => b = comma ∨ b = closeBrace ∨ b = closeBracket ∨ isSpace b = true

theorem closes_closeBrace : Closes (closeBrace :: rest) :=
  Or.inr (Or.inl rfl)

theorem eq_of_isSpace (h : isSpace b = true) : b = 0x20 ∨ b = 0x09 ∨ b = 0x0A ∨ b = 0x0D := by
  simpa only [isSpace, Bool.or_eq_true, decide_eq_true_eq, or_assoc] using h

/-- Seven bytes may stand right behind a value. -/
theorem Closes.head (h : Closes (b :: rest)) (p : UInt8 → Prop)
    (hp : p comma ∧ p closeBrace ∧ p closeBracket ∧ p 0x20 ∧ p 0x09 ∧ p 0x0A ∧ p 0x0D) : p b := by
  obtain ⟨hcomma, hbrace, hbracket, hspace, htab, hline, hreturn⟩ := hp
  rcases h with rfl | rfl | rfl | h
  · exact hcomma
  · exact hbrace
  · exact hbracket
  · rcases eq_of_isSpace h with rfl | rfl | rfl | rfl <;> assumption

theorem Closes.not_isDigit (h : Closes (b :: rest)) : isDigit b = false :=
  h.head (isDigit · = false) (by decide)

theorem afterInteger_of_closes {negative : Bool} (h : Closes rest) :
    afterInteger negative n 0 rest = withRest rest (integerOf negative n) := by
  cases rest with
  | nil => rfl
  | cons b rest =>
    obtain ⟨hpoint, hmark⟩ := h.head (fun b => b ≠ ascii '.' ∧ isExponentMark b = false) (by decide)
    simp only [afterInteger, if_neg hpoint, hmark, Bool.false_eq_true, if_false, if_true]

def digitByte (d : Nat) : UInt8 :=
  ascii (Radix.digitChar d)

theorem isDigit_digitByte {d : Nat} (h : d < 10) :
    isDigit (digitByte d) = true ∧ digitOf (digitByte d) = d ∧
      (digitByte d = ascii '0' → d = 0) := by
  have hall : ∀ d < 10, isDigit (digitByte d) = true ∧ digitOf (digitByte d) = d ∧
      (digitByte d = ascii '0' → d = 0) := by decide
  exact hall d h

theorem encode_digits {ds : List Nat} (h : ∀ d ∈ ds, d < 10) :
    Utf8.encode (ds.map Radix.digitChar) = ds.map digitByte := by
  induction ds with
  | nil => rfl
  | cons d ds ih =>
    have hascii : ∀ d < 10, (Radix.digitChar d).toNat < 0x80 := by decide
    rw [List.map_cons, List.map_cons, encode_cons_ascii (hascii d (h d List.mem_cons_self)),
      ih fun e he => h e (List.mem_cons_of_mem _ he), digitByte]

theorem Closes.head?_not_isDigit (h : Closes rest) : ∀ b ∈ rest.head?, isDigit b = false := by
  cases rest with
  | nil => simp
  | cons b rest =>
    intro d hd
    rw [← Option.some.inj hd]
    exact h.not_isDigit

theorem spanDigits_append (hb : ∀ b ∈ bytes, isDigit b = true)
    (hrest : ∀ b ∈ rest.head?, isDigit b = false) : spanDigits (bytes ++ rest) = (bytes, rest) := by
  have hstop : rest.takeWhile isDigit = [] ∧ rest.dropWhile isDigit = rest := by
    cases rest with
    | nil => exact ⟨rfl, rfl⟩
    | cons b rest => simp [hrest b rfl]
  unfold spanDigits
  rw [List.takeWhile_append_of_pos hb, List.dropWhile_append_of_pos hb, hstop.1, hstop.2,
    List.append_nil]

/-- All digits go into the coefficient if a word holds the number. -/
theorem absorb_digits {ds : List Nat} {taken : Nat} (h : ∀ d ∈ ds, d < 10)
    (hlt : ds.foldl (fun n d => n * 10 + d) n < wordLimit) :
    absorb n taken (ds.map digitByte) =
      (ds.foldl (fun n d => n * 10 + d) n, taken + ds.length, 0) := by
  induction ds generalizing n taken with
  | nil => rfl
  | cons d ds ih =>
    have hmono : ∀ (l : List Nat) (k : Nat), k ≤ l.foldl (fun n d => n * 10 + d) k := by
      intro l
      induction l with
      | nil => exact Nat.le_refl
      | cons e l ihl =>
        intro k
        exact Nat.le_trans (by omega) (ihl (k * 10 + e))
    have hd := (isDigit_digitByte (h d List.mem_cons_self)).2.1
    rw [List.foldl_cons] at hlt ⊢
    rw [List.map_cons, absorb, hd, if_pos (Nat.lt_of_le_of_lt (hmono ds _) hlt),
      ih (fun e he => h e (List.mem_cons_of_mem _ he)) hlt, List.length_cons]
    congr 2
    omega

/-- Only zero is written with a zero at its front. -/
theorem head_digits {d : Nat} {ds : List Nat} (h : Radix.digits 10 n = d :: ds) (hd : d = 0) :
    n = 0 := by
  induction n using Nat.strongRecOn generalizing d ds with
  | _ n ih =>
    by_cases hn : n < 10
    · rw [Radix.digits_of_lt hn, List.cons.injEq] at h
      exact h.1.trans hd
    · rw [Radix.digits_of_le (by decide) (Nat.le_of_not_lt hn)] at h
      cases hq : Radix.digits 10 (n / 10) with
      | nil => exact absurd hq (Radix.digits_ne_nil _ _)
      | cons e es =>
        rw [hq, List.cons_append, List.cons.injEq] at h
        have hzero := ih (n / 10) (by omega) hq (h.1.trans hd)
        omega

/-- A numeral behind its sign is read as its number. -/
theorem number_write {negative : Bool} (hn : n < wordLimit) (hrest : Closes rest) :
    number negative (Utf8.encode (Radix.write 10 n) ++ rest) =
      withRest rest (integerOf negative n) := by
  have hlt : ∀ d ∈ Radix.digits 10 n, d < 10 := Radix.digits_lt (by decide) n
  have hback : (Radix.digits 10 n).foldl (fun n d => n * 10 + d) 0 = n :=
    Radix.ofDigits_digits (by decide) n
  rw [Radix.write, encode_digits hlt]
  cases hds : Radix.digits 10 n with
  | nil => exact absurd hds (Radix.digits_ne_nil _ _)
  | cons d ds =>
    have hd : d < 10 := hlt d (hds ▸ List.mem_cons_self)
    have hdigit := isDigit_digitByte hd
    rw [List.map_cons, List.cons_append, number]
    by_cases hzero : digitByte d = ascii '0'
    · obtain rfl : n = 0 := head_digits hds (hdigit.2.2 hzero)
      obtain rfl : ds = [] := by
        rw [Radix.digits_of_lt (by decide)] at hds
        exact (List.cons.inj hds).2.symm
      have hhead : (rest.head?.map isDigit).getD false = false := by
        cases rest with
        | nil => rfl
        | cons b rest => exact hrest.not_isDigit
      simp only [hzero, if_true, List.map_nil, List.nil_append, hhead, Bool.false_eq_true, if_false]
      exact afterInteger_of_closes hrest
    · have hdigits : ∀ b ∈ (d :: ds).map digitByte, isDigit b = true := by
        intro b hb
        obtain ⟨e, he, rfl⟩ := List.mem_map.1 hb
        exact (isDigit_digitByte (hlt e (hds ▸ he))).1
      have hspan : spanDigits (digitByte d :: (ds.map digitByte ++ rest)) =
          ((d :: ds).map digitByte, rest) := spanDigits_append hdigits hrest.head?_not_isDigit
      rw [hds] at hback hlt
      have habsorb : absorb 0 0 ((d :: ds).map digitByte) = (n, 0 + (d :: ds).length, 0) := by
        rw [absorb_digits hlt (by rw [hback]; exact hn), hback]
      simp only [if_neg hzero, hdigit.1, if_true, hspan, habsorb]
      exact afterInteger_of_closes hrest

end Overlay.Wire.Reader
