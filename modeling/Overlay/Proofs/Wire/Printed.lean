import Overlay.Proofs.Wire.Grammar
import Overlay.Proofs.Wire.Value

/-!
# Texts that have been printed are well formed

A string has many spellings, and all of them are read as the string (`stringBody_spelling`); the one
that is printed escapes no more than it must. The compact text of any tree is one value of the
grammar, binary numbers and all (`wellFormed_text`), so whatever has been written is skipped where
nobody asks for it.
-/

namespace Overlay.Wire

open Reader

variable {b : UInt8} {bs rest : List UInt8} {n : Nat} {s : List Char} {k : String}

/-! ## Strings -/

/-- A string behind its opening quote, up to and with the closing one, in any spelling: characters
that stand for themselves, escapes of one letter, escaped code points and escaped pairs. -/
inductive Spelling : List UInt8 → List Char → Prop
  | close : Spelling [quote] []
  | plain {c : Char} {bs : List UInt8} {s : List Char} : c ≠ '"' → c ≠ '\\' → 0x20 ≤ c.toNat →
      Spelling bs s → Spelling (String.utf8EncodeChar c ++ bs) (c :: s)
  | letter {e : UInt8} {c : Char} {bs : List UInt8} {s : List Char} : c.toNat < 0x80 →
      plainEscape e = some (ascii c) → Spelling bs s → Spelling (backslash :: e :: bs) (c :: s)
  | unit {h₁ h₂ h₃ h₄ : UInt8} {n : Nat} {bs : List UInt8} {s : List Char} :
      hexUnit h₁ h₂ h₃ h₄ = some n → n < 0xD800 ∨ 0xDFFF < n → Spelling bs s →
      Spelling (backslash :: ascii 'u' :: h₁ :: h₂ :: h₃ :: h₄ :: bs) (Char.ofNat n :: s)
  | pair {h₁ h₂ h₃ h₄ g₁ g₂ g₃ g₄ : UInt8} {n m : Nat} {bs : List UInt8} {s : List Char} :
      hexUnit h₁ h₂ h₃ h₄ = some n → hexUnit g₁ g₂ g₃ g₄ = some m → isLeading n = true →
      isTrailing m = true → Spelling bs s →
      Spelling (backslash :: ascii 'u' :: h₁ :: h₂ :: h₃ :: h₄ ::
        backslash :: ascii 'u' :: g₁ :: g₂ :: g₃ :: g₄ :: bs) (Char.ofNat (joinPair n m) :: s)

theorem stringBytes_spelling (h : Spelling bs s) :
    stringBytes (bs ++ rest) = .ok (Utf8.encode s, rest) := by
  induction h with
  | close =>
    rw [List.singleton_append, stringBytes.eq_def]
    rfl
  | plain hq hb hlow _ ih =>
    have hne : ∀ {c d : Char}, c ≠ d → c.toNat ≠ d.toNat := fun h h' => h (Char.toNat_inj.1 h')
    rw [List.append_assoc, stringBytes_char (hne hq) (hne hb) hlow, ih]
    rfl
  | letter hc hplain _ ih =>
    rw [List.cons_append, List.cons_append, stringBytes_escape hplain, ih, Utf8.encode_cons,
      Utf8.utf8EncodeChar_of_ascii hc]
    rfl
  | unit hn hlone _ ih =>
    simp only [List.cons_append]
    rw [stringBytes_unit hn hlone, ih]
    rfl
  | pair hn hm hlead htrail _ ih =>
    simp only [List.cons_append]
    rw [stringBytes_pair hn hm hlead htrail, ih]
    rfl

theorem stringBody_spelling (h : Spelling bs k.toList) :
    stringBody (bs ++ rest) = .ok (k, rest) := by
  rw [stringBody_of_stringBytes (stringBytes_spelling h), String.ofList_toList]

theorem spelling_escaped (c : Char) (h : Spelling bs s) :
    Spelling (Utf8.encode (Json.escaped c) ++ bs) (c :: s) := by
  -- The seven characters with an escape of one letter.
  have letter : ∀ (e : Char) (n : Nat), c.toNat = n → e.toNat < 0x80 → n < 0x80 →
      plainEscape (ascii e) = some (UInt8.ofNat n) →
      Spelling (Utf8.encode ['\\', e] ++ bs) (c :: s) := by
    rintro e n rfl he hc hplain
    rw [encode_cons_ascii (by decide), encode_cons_ascii he]
    exact .letter hc hplain h
  unfold Json.escaped
  split
  case h_1 hc => exact letter '"' _ hc (by decide) (by decide) (by decide)
  case h_2 hc => exact letter '\\' _ hc (by decide) (by decide) (by decide)
  case h_3 hc => exact letter 'b' _ hc (by decide) (by decide) (by decide)
  case h_4 hc => exact letter 't' _ hc (by decide) (by decide) (by decide)
  case h_5 hc => exact letter 'n' _ hc (by decide) (by decide) (by decide)
  case h_6 hc => exact letter 'f' _ hc (by decide) (by decide) (by decide)
  case h_7 hc => exact letter 'r' _ hc (by decide) (by decide) (by decide)
  case h_8 hq hb _ _ _ _ _ =>
    split
    case isTrue hlt =>
      obtain ⟨h₁, h₂, h₃, h₄, henc, hunit⟩ := hexUnit_of_control hlt
      have hspelling := Spelling.unit hunit (.inl (by omega)) h
      rw [Char.ofNat_toNat] at hspelling
      rw [encode_cons_ascii (by decide), encode_cons_ascii (by decide), henc]
      exact hspelling
    case isFalse hlt =>
      rw [Utf8.encode_cons, Utf8.encode_nil, List.append_nil]
      exact .plain (fun hc => hq (hc ▸ rfl)) (fun hc => hb (hc ▸ rfl)) (Nat.not_lt.1 hlt) h

/-- A string is written in one of its spellings. -/
theorem spelling_escapes (s : List Char) :
    Spelling (Utf8.encode (s.flatMap Json.escaped ++ ['"'])) s := by
  induction s with
  | nil => exact .close
  | cons c s ih =>
    rw [List.flatMap_cons, List.append_assoc, Utf8.encode_append]
    exact spelling_escaped c ih

theorem mem_escapeLetters {e : UInt8} (h : plainEscape e = some b) : e ∈ escapeLetters := by
  have hall : ∀ n < 256, (plainEscape (UInt8.ofNat n)).isSome = true →
      UInt8.ofNat n ∈ escapeLetters := by decide +kernel
  have he := hall e.toNat e.toNat_lt
  rw [UInt8.ofNat_toNat, h] at he
  exact he rfl

theorem mem_hexDigits {d : UInt8} (h : hexDigit d = some n) : d ∈ hexDigits := by
  have hall : ∀ n < 256, (hexDigit (UInt8.ofNat n)).isSome = true →
      UInt8.ofNat n ∈ hexDigits := by decide +kernel
  have hd := hall d.toNat d.toNat_lt
  rw [UInt8.ofNat_toNat, h] at hd
  exact hd rfl

theorem Quoted.of_hexUnit {h₁ h₂ h₃ h₄ : UInt8} (h : hexUnit h₁ h₂ h₃ h₄ = some n)
    (hbs : Quoted bs) : Quoted (backslash :: ascii 'u' :: h₁ :: h₂ :: h₃ :: h₄ :: bs) := by
  simp only [hexUnit, Option.bind_eq_bind, Option.bind_eq_some_iff] at h
  obtain ⟨a, ha, b, hb, c, hc, d, hd, _⟩ := h
  exact .unit (mem_hexDigits ha) (mem_hexDigits hb) (mem_hexDigits hc) (mem_hexDigits hd) hbs

theorem Quoted.plains {cs : List UInt8} (h : ∀ b ∈ cs, b ≠ quote ∧ b ≠ backslash ∧ 0x20 ≤ b)
    (hbs : Quoted bs) : Quoted (cs ++ bs) := by
  induction cs with
  | nil => exact hbs
  | cons b cs ih =>
    obtain ⟨⟨hq, hb, hlow⟩, hcs⟩ := List.forall_mem_cons.1 h
    exact .plain hq hb hlow (ih hcs)

/-- The bytes of a character that stands for itself. -/
theorem plain_of_mem_utf8EncodeChar {c : Char} (hq : c ≠ '"') (hb : c ≠ '\\') (hc : 0x20 ≤ c.toNat)
    {d : UInt8} (hd : d ∈ String.utf8EncodeChar c) : d ≠ quote ∧ d ≠ backslash ∧ 0x20 ≤ d := by
  have hnat : d.toNat = c.toNat ∨ 0x80 ≤ d.toNat := by
    by_cases hascii : c.toNat < 0x80
    · rw [Utf8.utf8EncodeChar_of_ascii hascii, List.mem_singleton] at hd
      exact .inl (hd ▸ toNat_ascii hascii)
    · exact .inr (Utf8.le_of_mem_utf8EncodeChar (by omega) hd)
  have hne : ∀ e : Char, c ≠ e → e.toNat < 0x80 → d ≠ UInt8.ofNat e.toNat := by
    rintro e hce he rfl
    have htoNat : (UInt8.ofNat e.toNat).toNat = e.toNat := toNat_ascii he
    rcases hnat with h | h
    · exact hce (Char.toNat_inj.1 (h.symm.trans htoNat))
    · omega
  refine ⟨hne _ hq (by decide), hne _ hb (by decide), ?_⟩
  rw [UInt8.le_iff_toNat_le]
  have hlow : (0x20 : UInt8).toNat = 0x20 := rfl
  omega

/-- What spells a string has the form of one. -/
theorem Spelling.quoted (h : Spelling bs s) : Quoted bs := by
  induction h with
  | close => exact .close
  | plain hq hb hlow _ ih => exact .plains (fun _ => plain_of_mem_utf8EncodeChar hq hb hlow) ih
  | letter _ hplain _ ih => exact .letter (mem_escapeLetters hplain) ih
  | unit hn _ _ ih => exact .of_hexUnit hn ih
  | pair hn hm _ _ _ ih => exact .of_hexUnit hn (.of_hexUnit hm ih)

/-! ## Numbers -/

theorem digits_encode {l : List Nat} (hne : l ≠ []) (h : ∀ d ∈ l, d < 10) :
    Digits (Utf8.encode (l.map Radix.digitChar)) := by
  rw [encode_digits h]
  refine ⟨by simpa using hne, fun b hb => ?_⟩
  obtain ⟨d, hd, rfl⟩ := List.mem_map.1 hb
  exact (isDigit_digitByte (h d hd)).1

theorem wholePart_encode {l : List Nat} (hne : l ≠ []) (h : ∀ d ∈ l, d < 10)
    (hzero : l.head? = some 0 → l = [0]) : WholePart (Utf8.encode (l.map Radix.digitChar)) := by
  refine ⟨digits_encode hne h, fun hhead => ?_⟩
  obtain ⟨d, l, rfl⟩ := List.exists_cons_of_ne_nil hne
  rw [encode_digits h] at hhead ⊢
  have hd : d = 0 :=
    (isDigit_digitByte (h d List.mem_cons_self)).2.2 (Option.some.inj hhead)
  obtain ⟨rfl, rfl⟩ := List.cons.inj (hzero (by rw [hd]; rfl))
  rfl

theorem head?_digits {n : Nat} (h : (Radix.digits 10 n).head? = some 0) :
    Radix.digits 10 n = [0] := by
  cases hds : Radix.digits 10 n with
  | nil => exact absurd hds (Radix.digits_ne_nil _ _)
  | cons d ds =>
    rw [hds] at h
    obtain rfl : n = 0 := head_digits hds (Option.some.inj h)
    rw [← hds, Radix.digits_of_lt (by decide)]

theorem numeral_write (n : Nat) : Numeral (Utf8.encode (Radix.write 10 n)) :=
  ⟨_, [], [], wholePart_encode (Radix.digits_ne_nil _ _) (Radix.digits_lt (by decide) n)
    head?_digits, .inl rfl, .inl rfl, by simp [Radix.write]⟩

/-- Digits, a point, and digits. -/
theorem numeral_point {l m : List Nat} (hl : l ≠ []) (hm : m ≠ []) (hlt : ∀ d ∈ l ++ m, d < 10)
    (hzero : l.head? = some 0 → l = [0]) :
    Numeral (Utf8.encode (l.map Radix.digitChar ++ '.' :: m.map Radix.digitChar)) := by
  have hlt' := List.forall_mem_append.1 hlt
  refine ⟨_, _, [], wholePart_encode hl hlt'.1 hzero,
    .inr ⟨_, digits_encode hm hlt'.2, rfl⟩, .inl rfl, ?_⟩
  rw [Utf8.encode_append, encode_cons_ascii (by decide), List.append_nil]

theorem digitChar_zero : Radix.digitChar 0 = '0' := rfl

section

variable {l : List Nat} (hne : l ≠ []) (hlt : ∀ d ∈ l, d < 10)

include hne hlt

/-- A number below one. -/
theorem numeral_below_one (k : Nat) :
    Numeral (Utf8.encode ('0' :: '.' :: List.replicate k '0' ++ l.map Radix.digitChar)) := by
  have hdigits : ∀ d ∈ [0] ++ (List.replicate k 0 ++ l), d < 10 := by
    intro d hd
    simp only [List.mem_append, List.mem_replicate, List.mem_singleton] at hd
    rcases hd with rfl | ⟨_, rfl⟩ | hd
    · decide
    · decide
    · exact hlt d hd
  have h := numeral_point (l := [0]) (m := List.replicate k 0 ++ l) (by simp) (by simp [hne])
    hdigits (by simp)
  simpa [digitChar_zero] using h

variable (hhead : l.head? ≠ some 0)

include hhead

/-- A whole number that is kept as a binary one. -/
theorem numeral_padded (k : Nat) :
    Numeral (Utf8.encode (l.map Radix.digitChar ++ List.replicate k '0' ++ ['.', '0'])) := by
  have hdigits : ∀ d ∈ (l ++ List.replicate k 0) ++ [0], d < 10 := by
    intro d hd
    simp only [List.mem_append, List.mem_replicate, List.mem_singleton] at hd
    rcases hd with (hd | ⟨_, rfl⟩) | rfl
    · exact hlt d hd
    · decide
    · decide
  have hfront : (l ++ List.replicate k 0).head? ≠ some 0 := by
    obtain ⟨d, ds, rfl⟩ := List.exists_cons_of_ne_nil hne
    exact hhead
  have h := numeral_point (l := l ++ List.replicate k 0) (m := [0]) (by simp [hne]) (by simp)
    hdigits (absurd · hfront)
  simpa [digitChar_zero] using h

/-- A point between the digits. -/
theorem numeral_split {k : Nat} (hpos : 0 < k) (hk : k < l.length) :
    Numeral (Utf8.encode
      ((l.map Radix.digitChar).take k ++ '.' :: (l.map Radix.digitChar).drop k)) := by
  have hfront : (l.take k).head? ≠ some 0 := by
    rw [List.head?_take, if_neg (by omega)]
    exact hhead
  have h := numeral_point (l := l.take k) (m := l.drop k) (by simp [hne]; omega) (by simpa using hk)
    (by rwa [List.take_append_drop]) (absurd · hfront)
  simpa only [List.map_take, List.map_drop] using h

/-- One digit, further ones behind a point if there are any, and an exponent. -/
theorem numeral_scientific {sign : Char} (hsign : sign = '+' ∨ sign = '-') (k : Nat) :
    Numeral (Utf8.encode ((l.map Radix.digitChar).take 1 ++
      (if l.length = 1 then [] else '.' :: (l.map Radix.digitChar).drop 1) ++
        'e' :: sign :: Radix.write 10 k)) := by
  obtain ⟨d, ds, rfl⟩ := List.exists_cons_of_ne_nil hne
  have hexp : ExponentPart (Utf8.encode ('e' :: sign :: Radix.write 10 k)) := by
    have hk := digits_encode (Radix.digits_ne_nil 10 k) (Radix.digits_lt (by decide) k)
    rcases hsign with rfl | rfl
    · exact .inr ⟨ascii 'e', [ascii '+'], _, by simp, by simp, hk, rfl⟩
    · exact .inr ⟨ascii 'e', [ascii '-'], _, by simp, by simp, hk, rfl⟩
  have hfraction : FractionPart
      (Utf8.encode (if (d :: ds).length = 1 then [] else '.' :: ds.map Radix.digitChar)) := by
    split
    next => exact .inl rfl
    next hlen =>
      have hds : ds ≠ [] := by
        rintro rfl
        exact hlen rfl
      exact .inr ⟨_, digits_encode hds fun d hd => hlt d (List.mem_cons_of_mem _ hd), rfl⟩
  have hone : WholePart (Utf8.encode ([d].map Radix.digitChar)) :=
    wholePart_encode (by simp) (fun e he => hlt e (by simp_all)) (by simp)
  refine ⟨_, _, _, hone, hfraction, hexp, ?_⟩
  rw [← Utf8.encode_append, ← Utf8.encode_append]
  rfl

end

/-- The numeral of a finite binary number. -/
theorem numeral_decimalText (d : Binary64.Decimal) : Numeral (Utf8.encode (Json.decimalText d)) := by
  obtain ⟨n, exponent⟩ := d
  have hne := Radix.digits_ne_nil 10 n
  have hlt : ∀ d ∈ Radix.digits 10 n, d < 10 := Radix.digits_lt (by decide) n
  have hhead : n ≠ 0 → (Radix.digits 10 n).head? ≠ some 0 := by
    intro hn hhead
    have hval : Radix.ofDigits 10 (Radix.digits 10 n) = n := Radix.ofDigits_digits (by decide) n
    rw [head?_digits hhead] at hval
    exact hn hval.symm
  simp only [Json.decimalText, Radix.write, List.length_map]
  split
  next => exact numeral_point (l := [0]) (m := [0]) (by simp) (by simp) (by simp) (by simp)
  next hn =>
    split
    next =>
      split
      next => exact numeral_below_one hne hlt _
      next hpoint =>
        split
        next => exact numeral_padded hne hlt (hhead hn) _
        next hlen => exact numeral_split hne hlt (hhead hn) (by omega) (by omega)
    next =>
      refine numeral_scientific hne hlt (hhead hn) ?_ _
      split
      · exact .inl rfl
      · exact .inr rfl

theorem wellFormed_numberText (n : Number) : WellFormed (Utf8.encode (Json.numberText n)) := by
  cases n with
  | whole n range =>
    have htext : Utf8.encode (Json.numberText (.whole n range)) =
        (if n < 0 then [ascii '-'] else []) ++ Utf8.encode (Radix.write 10 n.natAbs) :=
      encode_wholeText n
    rw [htext]
    split
    · exact .negative (numeral_write n.natAbs)
    · exact .numeral (numeral_write n.natAbs)
  | real x =>
    have hdecimal := numeral_decimalText x.shortest
    rw [Json.numberText, Json.realText]
    split
    · exact .negative hdecimal
    · exact .numeral hdecimal

/-! ## Trees -/

theorem wellFormed_string (s : String) : WellFormed (Utf8.encode (Json.stringText s)) := by
  rw [encode_stringText]
  exact .string (spelling_escapes s.toList).quoted

theorem itemsText_false (j : Json) (js : List Json) :
    itemsText false (j :: js) = ',' :: itemsText true (j :: js) := by
  simp [itemsText]

theorem membersText_false (m : String × Json) (ms : List (String × Json)) :
    membersText false (m :: ms) = ',' :: membersText true (m :: ms) := by
  simp [membersText]

theorem lead_key (k : String) : Lead .object (Utf8.encode (Json.stringText k ++ [':'])) := by
  have h := Lead.object blank_nil (spelling_escapes k.toList).quoted blank_nil blank_nil
  rw [Utf8.encode_append, encode_stringText]
  exact h

theorem utf8EncodeChar_comma : String.utf8EncodeChar ',' = [comma] := rfl

mutual

/-- **The text of a tree is well formed.** -/
theorem wellFormed_text : ∀ j : Json, WellFormed (Utf8.encode j.text)
  | .null => .null
  | .bool b => .bool b
  | .number n => wellFormed_numberText n
  | .string s => wellFormed_string s
  | .array [] => .empty .list blank_nil
  | .array (j :: js) => by
    have henc := @encode_array [] (j :: js)
    rw [List.append_nil] at henc
    rw [henc]
    exact .filled (filling_items (j :: js) (List.cons_ne_nil _ _))
  | .object [] => .empty .object blank_nil
  | .object (m :: ms) => by
    have henc := @encode_object [] (m :: ms)
    rw [List.append_nil] at henc
    rw [henc]
    exact .filled (filling_members (m :: ms) (List.cons_ne_nil _ _))

theorem filling_items : ∀ js : List Json, js ≠ [] →
    Filling .list (Utf8.encode (itemsText true js) ++ [closeBracket])
  | [j], _ => by
    have h := Filling.last (.list blank_nil) (wellFormed_text j) blank_nil
    simpa [itemsText, Nest.closer] using h
  | j :: i :: js, _ => by
    have h := Filling.more (.list blank_nil) (wellFormed_text j) blank_nil
      (filling_items (i :: js) (List.cons_ne_nil _ _))
    rw [itemsText, itemsText_false]
    simpa [utf8EncodeChar_comma] using h

theorem filling_members : ∀ ms : List (String × Json), ms ≠ [] →
    Filling .object (Utf8.encode (membersText true ms) ++ [closeBrace])
  | [(k, j)], _ => by
    have h := Filling.last (lead_key k) (wellFormed_text j) blank_nil
    simpa [membersText, Nest.closer] using h
  | (k, j) :: m :: ms, _ => by
    have h := Filling.more (lead_key k) (wellFormed_text j) blank_nil
      (filling_members (m :: ms) (List.cons_ne_nil _ _))
    rw [membersText, membersText_false]
    simpa [utf8EncodeChar_comma] using h

end

end Overlay.Wire
