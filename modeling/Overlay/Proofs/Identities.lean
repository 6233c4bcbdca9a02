import Overlay.Proofs.Names
import Overlay.Proofs.Numerals

/-!
# Identities in any spelling

`SpelledAs` says of a text that it stands for an identity, and `Faulty` says what is wrong with one
that stands for none. Both are told from the text alone: a spelling is put together from the
spellings of its parts, and a fault is found by counting the colons and then looking at the parts
between them from the left. Reading comes to the identity or to the fault (`verdict_parse`), so each
is known from the text (`parse_eq_ok_iff`, `parse_eq_error_iff`).

No part holds a colon, not even an identifier in braces, so the text of an identity is never cut in
the wrong place. The spelling of an identifier behind `urn:uuid:` has colons and is none inside an
identity.
-/

namespace Overlay

/-! ## Digits are no colons -/

namespace Radix

variable {base n d : Nat} {s : List Char}

theorem not_isDigit_colon : ¬IsDigit base ':' d := by
  rintro ⟨-, h⟩
  have hmem : ':' ∈ alphabet := List.mem_of_getElem? h
  exact absurd hmem (by decide)

theorem Denotes.no_colon (h : Denotes base s n) : ':' ∉ s := by
  intro hc
  obtain ⟨d, hd⟩ := h.exists_isDigit hc
  exact not_isDigit_colon hd

theorem Numeral.no_colon (h : Numeral base s n) : ':' ∉ s := by
  intro hc
  rcases h.exists_isDigit hc with hplus | ⟨d, hd⟩
  · exact absurd hplus (by decide)
  · exact not_isDigit_colon hd

end Radix

/-! ## Identifiers -/

namespace Uuid

variable {u : Uuid} {s cs : List Char} {c : Char} {n : Nat}

/-- Five groups of eight, four, four, four and twelve hexadecimal digits, with hyphens between
them. -/
inductive Grouped (u : Uuid) : List Char → Prop
  | intro {a b c d e : List Char} : a.length = 8 → b.length = 4 → c.length = 4 → d.length = 4 →
      e.length = 12 → Radix.Denotes 16 (a ++ b ++ c ++ d ++ e) u.toNat →
      Grouped u (a ++ '-' :: b ++ '-' :: c ++ '-' :: d ++ '-' :: e)

/-- The spellings of an identifier that have no colon: 32 hexadecimal digits, or five groups, or
five groups in braces. -/
inductive SpelledAs (u : Uuid) : List Char → Prop
  | plain {cs : List Char} : cs.length = 32 → Radix.Denotes 16 cs u.toNat → SpelledAs u cs
  | grouped {cs : List Char} : Grouped u cs → SpelledAs u cs
  | braced {cs : List Char} : Grouped u cs → SpelledAs u ('\x7b' :: (cs ++ ['\x7d']))

theorem Grouped.length (h : Grouped u s) : s.length = 36 := by
  obtain ⟨ha, hb, hc, hd, he, -⟩ := h
  simp [ha, hb, hc, hd, he]

theorem Grouped.no_colon (h : Grouped u s) : ':' ∉ s := by
  obtain ⟨-, -, -, -, -, hdigits⟩ := h
  have hnone := hdigits.no_colon
  simp only [List.mem_append, List.mem_cons, not_or] at hnone ⊢
  simp [hnone]

theorem SpelledAs.no_colon (h : u.SpelledAs s) : ':' ∉ s := by
  cases h with
  | plain _ hdigits => exact hdigits.no_colon
  | grouped h => exact h.no_colon
  | braced h => simp [h.no_colon]

theorem toNat_ofNat (h : n < 0x100000000000000000000000000000000) : (ofNat n).toNat = n :=
  Nat.mod_eq_of_lt h

theorem ofSimple?_eq_some_iff :
    ofSimple? s = some u ↔ s.length = 32 ∧ Radix.Denotes 16 s u.toNat := by
  unfold ofSimple?
  by_cases hlen : s.length = 32
  · rw [if_pos hlen]
    constructor
    · intro h
      split at h
      · next n hread =>
        obtain ⟨hs, hn⟩ := (Radix.readDigits_eq_ok_iff (by decide)).1 hread
        cases h
        refine ⟨hlen, ?_⟩
        rwa [toNat_ofNat hn]
      · contradiction
    · rintro ⟨-, hs⟩
      rw [(Radix.readDigits_eq_ok_iff (by decide)).2 ⟨hs, u.toNat_lt⟩]
      exact congrArg some ofNat_toNat
  · simp [hlen]

theorem drop_eq_cons (h : s[n]? = some c) : s.drop n = c :: s.drop (n + 1) := by
  obtain ⟨hlt, rfl⟩ := List.getElem?_eq_some_iff.1 h
  exact List.drop_eq_getElem_cons hlt

theorem ofHyphenated?_eq_some_iff : ofHyphenated? s = some u ↔ Grouped u s := by
  constructor
  · intro h
    unfold ofHyphenated? at h
    split at h
    · next hform =>
      obtain ⟨hlen, h8, h13, h18, h23⟩ := hform
      have hgroup : ∀ n, (s.drop n).take 4 ++ s.drop (n + 4) = s.drop n := by
        intro n
        rw [← List.drop_drop]
        exact List.take_append_drop 4 _
      have hjoin : s.take 8 ++ '-' :: (s.drop 9).take 4 ++ '-' :: (s.drop 14).take 4 ++
          '-' :: (s.drop 19).take 4 ++ '-' :: s.drop 24 = s := by
        simp only [List.append_assoc, List.cons_append]
        rw [← drop_eq_cons h23, hgroup 19, ← drop_eq_cons h18, hgroup 14, ← drop_eq_cons h13,
          hgroup 9, ← drop_eq_cons h8, List.take_append_drop]
      rw [← hjoin]
      exact .intro (by simp [hlen]) (by simp [hlen]) (by simp [hlen]) (by simp [hlen])
        (by simp [hlen]) (ofSimple?_eq_some_iff.1 h).2
    · contradiction
  · rintro ⟨ha, hb, hc, hd, he, hdigits⟩
    rw [ofHyphenated?_groups ha hb hc hd he]
    exact ofSimple?_eq_some_iff.2 ⟨by simp [ha, hb, hc, hd, he], hdigits⟩

theorem unbraced?_eq_some_iff : unbraced? s = some cs ↔ s = '\x7b' :: (cs ++ ['\x7d']) := by
  constructor
  · intro h
    unfold unbraced? at h
    split at h
    · contradiction
    · next c rest =>
      split at h
      · next hbraces =>
        obtain ⟨hopen, hclose⟩ := hbraces
        obtain ⟨last, hlast, hnat⟩ := Option.map_eq_some_iff.1 hclose
        obtain rfl : c = '\x7b' := Char.toNat_inj.1 hopen
        obtain rfl : last = '\x7d' := Char.toNat_inj.1 hnat
        obtain ⟨inner, rfl⟩ := List.getLast?_eq_some_iff.1 hlast
        rw [List.dropLast_concat] at h
        cases h
        rfl
      · contradiction
  · rintro rfl
    simp [unbraced?]

/-- A text without a colon does not begin with `urn:uuid:`. -/
theorem afterUrn?_eq_none (h : ':' ∉ s) : afterUrn? s = none := by
  unfold afterUrn?
  split
  · next hurn =>
    have hcolon : ':' ∈ (s.take 9).map Char.toLower := by
      rw [hurn]
      decide
    obtain ⟨c, hc, hlower⟩ := List.mem_map.1 hcolon
    have hnat := congrArg Char.toNat hlower
    rw [Radix.toNat_toLower] at hnat
    have hvalue : (':' : Char).toNat = 0x3A := rfl
    obtain rfl : c = ':' := by
      apply Char.toNat_inj.1
      split at hnat <;> omega
    exact absurd (List.mem_of_mem_take hc) h
  · rfl

/-- The forms differ in their lengths, so no form hides a later one. -/
theorem parse?_of_spelledAs (h : u.SpelledAs s) : parse? s = some u := by
  have hsimple : s.length ≠ 32 → ofSimple? s = none := fun hlen => if_neg hlen
  have hhyphens : s.length ≠ 36 → ofHyphenated? s = none := fun hlen => if_neg (by simp [hlen])
  unfold parse?
  cases h with
  | plain hlen hdigits => rw [ofSimple?_eq_some_iff.2 ⟨hlen, hdigits⟩, Option.some_or]
  | grouped h =>
    have hlen := h.length
    rw [hsimple (by omega), Option.none_or, ofHyphenated?_eq_some_iff.2 h, Option.some_or]
  | @braced cs h =>
    have hlen : ('\x7b' :: (cs ++ ['\x7d'])).length = 38 := by simp [h.length]
    have hunbraced : unbraced? ('\x7b' :: (cs ++ ['\x7d'])) = some cs :=
      unbraced?_eq_some_iff.2 rfl
    rw [hsimple (by omega), hhyphens (by omega), Option.none_or, Option.none_or, hunbraced,
      Option.bind_some, ofHyphenated?_eq_some_iff.2 h, Option.some_or]

/-- **Of the texts without a colon, the spellings are those that are read.** -/
theorem parse?_eq_some_iff (hcolon : ':' ∉ s) : parse? s = some u ↔ u.SpelledAs s := by
  constructor
  · intro h
    simp only [parse?, afterUrn?_eq_none hcolon, Option.bind_none, Option.or_none,
      Option.or_eq_some_iff] at h
    rcases h with h | ⟨-, h | ⟨-, h⟩⟩
    · obtain ⟨hlen, hdigits⟩ := ofSimple?_eq_some_iff.1 h
      exact .plain hlen hdigits
    · exact .grouped (ofHyphenated?_eq_some_iff.1 h)
    · obtain ⟨cs, hcs, h⟩ := Option.bind_eq_some_iff.1 h
      rw [unbraced?_eq_some_iff.1 hcs]
      exact .braced (ofHyphenated?_eq_some_iff.1 h)
  · exact parse?_of_spelledAs

end Uuid

namespace Identity

variable {i : Identity} {kind : IdentityKind} {u : Uuid} {s k us rs : List Char}
  {r : Option (List Char)} {e : IdentityError}

/-! ## Parts -/

/-- A text with one colon or two, and its parts between them. -/
inductive Divided : List Char → List Char → List Char → Option (List Char) → Prop
  | two {k us : List Char} : ':' ∉ k → ':' ∉ us → Divided (k ++ ':' :: us) k us none
  | three {k us rs : List Char} : ':' ∉ k → ':' ∉ us → ':' ∉ rs →
      Divided (k ++ ':' :: (us ++ ':' :: rs)) k us (some rs)

theorem Divided.no_colon (h : Divided s k us r) : ':' ∉ us := by
  cases h with
  | two _ hus => exact hus
  | three _ hus _ => exact hus

theorem parts_of_divided (h : Divided s k us r) : parts s = k :: us :: r.toList := by
  cases h with
  | two hk hus => rw [parts_append_colon hk, parts_of_no_colon hus, Option.toList_none]
  | three hk hus hrs =>
    rw [parts_append_colon hk, parts_append_colon hus, parts_of_no_colon hrs, Option.toList_some]

/-- A text with a colon is cut at the first one. -/
theorem exists_cut {n : Nat} (h : s.count ':' = n + 1) :
    ∃ p t, ':' ∉ p ∧ s = p ++ ':' :: t ∧ t.count ':' = n := by
  have hmem : ':' ∈ s := List.count_pos_iff.1 (by omega)
  obtain ⟨p, t, rfl, hp⟩ := List.eq_append_cons_of_mem hmem
  refine ⟨p, t, hp, rfl, ?_⟩
  rw [List.count_append, List.count_eq_zero.2 hp, List.count_cons_self] at h
  omega

theorem exists_divided (h : s.count ':' = 1 ∨ s.count ':' = 2) : ∃ k us r, Divided s k us r := by
  rcases h with h | h
  · obtain ⟨k, us, hk, rfl, hus⟩ := exists_cut h
    exact ⟨k, us, none, .two hk (List.count_eq_zero.1 hus)⟩
  · obtain ⟨k, t, hk, rfl, ht⟩ := exists_cut h
    obtain ⟨us, rs, hus, rfl, hrs⟩ := exists_cut ht
    exact ⟨k, us, some rs, .three hk hus (List.count_eq_zero.1 hrs)⟩

theorem length_parts (s : List Char) : (parts s).length = s.count ':' + 1 := by
  induction s with
  | nil => rfl
  | cons c s ih =>
    rw [parts]
    cases hs : parts s with
    | nil => simp [hs] at ih
    | cons p ps =>
      rw [hs, List.length_cons] at ih
      by_cases hc : c = ':'
      · simp only [hc, if_true, List.length_cons, List.count_cons_self]
        omega
      · simp only [hc, if_false, List.length_cons, List.count_cons_of_ne hc]
        omega

theorem parse_of_count (hone : s.count ':' ≠ 1) (htwo : s.count ':' ≠ 2) :
    parse s = .error .badShape := by
  have hlen := length_parts s
  unfold parse
  split
  · next hs =>
    rw [hs, List.length_cons, List.length_singleton] at hlen
    omega
  · next hs =>
    rw [hs, List.length_cons, List.length_cons, List.length_singleton] at hlen
    omega
  · rfl

/-! ## Spellings and faults -/

/-- The spellings of an identity: the letters of its kind, a colon and a spelling of its identifier,
and if it has a run number another colon and a numeral of that in base 32. -/
inductive SpelledAs : Identity → List Char → Prop
  | lone {kind : IdentityKind} {u : Uuid} {us : List Char} : u.SpelledAs us →
      SpelledAs ⟨kind, u, none⟩ (kind.tag.toList ++ ':' :: us)
  | run {kind : IdentityKind} {u : Uuid} {n : UInt64} {us rs : List Char} : u.SpelledAs us →
      Radix.Numeral 32 rs n.toNat →
      SpelledAs ⟨kind, u, some n⟩ (kind.tag.toList ++ ':' :: (us ++ ':' :: rs))

/-- What is wrong with a text that is no spelling of an identity: the number of its colons, or else
the first part that is wrong. -/
inductive Faulty (s : List Char) : IdentityError → Prop
  | badShape : s.count ':' ≠ 1 → s.count ':' ≠ 2 → Faulty s .badShape
  | unknownKind {k us : List Char} {r : Option (List Char)} : Divided s k us r →
      (∀ kind : IdentityKind, k ≠ kind.tag.toList) → Faulty s (.unknownKind (String.ofList k))
  | badUuid {kind : IdentityKind} {us : List Char} {r : Option (List Char)} :
      Divided s kind.tag.toList us r → (∀ u : Uuid, ¬u.SpelledAs us) → Faulty s .badUuid
  | badRun {kind : IdentityKind} {u : Uuid} {us rs : List Char} {e : Radix.NumeralError} :
      Divided s kind.tag.toList us (some rs) → u.SpelledAs us →
      Radix.Flaw 32 0x10000000000000000 rs e → Faulty s (.badRun e)

/-- An identity that the text spells, or a fault that it has. -/
inductive Verdict (s : List Char) : Except IdentityError Identity → Prop
  | spelled {i : Identity} : i.SpelledAs s → Verdict s (.ok i)
  | faulty {e : IdentityError} : Faulty s e → Verdict s (.error e)

theorem ofTag?_eq_none_iff {t : String} :
    IdentityKind.ofTag? t = none ↔ ∀ kind : IdentityKind, t ≠ kind.tag := by
  constructor
  · rintro h kind rfl
    rw [ofTag?_tag] at h
    contradiction
  · intro h
    have hcloud : t ≠ "CLD" := h .cloud
    have hagent : t ≠ "AGT" := h .agent
    rw [IdentityKind.ofTag?, if_neg hcloud, if_neg hagent]

theorem ofParts_unknownKind (h : ∀ kind : IdentityKind, k ≠ kind.tag.toList) :
    ofParts k us = .error (.unknownKind (String.ofList k)) := by
  have hnone : IdentityKind.ofTag? (String.ofList k) = none := by
    rw [ofTag?_eq_none_iff]
    rintro kind htag
    exact h kind (by rw [← htag, String.toList_ofList])
  rw [ofParts, hnone]

theorem ofParts_badUuid (hcolon : ':' ∉ us) (h : ∀ u : Uuid, ¬u.SpelledAs us) :
    ofParts kind.tag.toList us = .error .badUuid := by
  have hnone : Uuid.parse? us = none := by
    rw [Option.eq_none_iff_forall_ne_some]
    exact fun u hu => h u ((Uuid.parse?_eq_some_iff hcolon).1 hu)
  rw [ofParts, String.ofList_toList, ofTag?_tag, hnone]

theorem ofParts_of_spelledAs (h : u.SpelledAs us) :
    ofParts kind.tag.toList us = .ok ⟨kind, u, none⟩ := by
  rw [ofParts, String.ofList_toList, ofTag?_tag, Uuid.parse?_of_spelledAs h]

/-- A fault of the first two parts is the answer, whether a third part follows or not. -/
theorem parse_error (h : Divided s k us r) (he : ofParts k us = .error e) :
    parse s = .error e := by
  cases r <;> simp only [parse, parts_of_divided h, Option.toList, he]

theorem parse_lone (h : Divided s kind.tag.toList us none) (hu : u.SpelledAs us) :
    parse s = .ok ⟨kind, u, none⟩ := by
  simp only [parse, parts_of_divided h, Option.toList_none, ofParts_of_spelledAs hu]

theorem parse_run (h : Divided s kind.tag.toList us (some rs)) (hu : u.SpelledAs us) :
    parse s = match Radix.read 32 0x10000000000000000 rs with
      | .error e => .error (.badRun e)
      | .ok n => .ok ⟨kind, u, some (UInt64.ofNat n)⟩ := by
  cases hread : Radix.read 32 0x10000000000000000 rs <;>
    simp only [parse, parts_of_divided h, Option.toList_some, ofParts_of_spelledAs hu, hread]

/-- With the first two parts right, the third decides. -/
theorem verdict_of_divided (h : Divided s kind.tag.toList us r) (hu : u.SpelledAs us) :
    Verdict s (parse s) := by
  cases r with
  | none =>
    rw [parse_lone h hu]
    cases h
    exact .spelled (.lone hu)
  | some rs =>
    rw [parse_run h hu]
    cases hread : Radix.read 32 0x10000000000000000 rs with
    | error e => exact .faulty (.badRun h hu ((Radix.read_eq_error_iff (by decide)).1 hread))
    | ok n =>
      obtain ⟨hrun, hn⟩ := (Radix.read_eq_ok_iff (by decide)).1 hread
      have hword : (UInt64.ofNat n).toNat = n := UInt64.toNat_ofNat_of_lt' hn
      cases h
      exact .spelled (.run hu (by rwa [hword]))

/-- The colons are counted first, and then the parts are looked at from the left. -/
theorem verdict_parse (s : List Char) : Verdict s (parse s) := by
  by_cases hcount : s.count ':' = 1 ∨ s.count ':' = 2
  case neg =>
    obtain ⟨hone, htwo⟩ := not_or.1 hcount
    rw [parse_of_count hone htwo]
    exact .faulty (.badShape hone htwo)
  obtain ⟨k, us, r, hdivided⟩ := exists_divided hcount
  by_cases hkind : ∃ kind : IdentityKind, k = kind.tag.toList
  case neg =>
    have hnone := not_exists.1 hkind
    rw [parse_error hdivided (ofParts_unknownKind hnone)]
    exact .faulty (.unknownKind hdivided hnone)
  obtain ⟨kind, rfl⟩ := hkind
  by_cases huuid : ∃ u : Uuid, u.SpelledAs us
  case neg =>
    have hnone := not_exists.1 huuid
    rw [parse_error hdivided (ofParts_badUuid hdivided.no_colon hnone)]
    exact .faulty (.badUuid hdivided hnone)
  obtain ⟨u, hu⟩ := huuid
  exact verdict_of_divided hdivided hu

theorem parse_of_spelledAs (h : i.SpelledAs s) : parse s = .ok i := by
  cases h with
  | lone hu => exact parse_lone (.two (no_colon_tag _) hu.no_colon) hu
  | @run kind u n us rs hu hrun =>
    have hread : Radix.read 32 0x10000000000000000 rs = .ok n.toNat :=
      (Radix.read_eq_ok_iff (by decide)).2 ⟨hrun, n.toNat_lt⟩
    rw [parse_run (.three (no_colon_tag kind) hu.no_colon hrun.no_colon) hu, hread]
    simp only [UInt64.ofNat_toNat]

theorem parse_of_faulty (h : Faulty s e) : parse s = .error e := by
  cases h with
  | badShape hone htwo => exact parse_of_count hone htwo
  | unknownKind hdivided hkind => exact parse_error hdivided (ofParts_unknownKind hkind)
  | badUuid hdivided huuid =>
    exact parse_error hdivided (ofParts_badUuid hdivided.no_colon huuid)
  | @badRun kind u us rs e hdivided hu hflaw =>
    have hread : Radix.read 32 0x10000000000000000 rs = .error e :=
      (Radix.read_eq_error_iff (by decide)).2 hflaw
    rw [parse_run hdivided hu, hread]

/-- **The texts that are read as an identity.** -/
theorem parse_eq_ok_iff : parse s = .ok i ↔ i.SpelledAs s := by
  refine ⟨?_, parse_of_spelledAs⟩
  intro h
  have hverdict := verdict_parse s
  rw [h] at hverdict
  cases hverdict with
  | spelled hs => exact hs

/-- **The texts that are refused with an error.** -/
theorem parse_eq_error_iff : parse s = .error e ↔ Faulty s e := by
  refine ⟨?_, parse_of_faulty⟩
  intro h
  have hverdict := verdict_parse s
  rw [h] at hverdict
  cases hverdict with
  | faulty hs => exact hs

example : parse "XYZ:no-uuid:".toList = .error (.unknownKind "XYZ") := rfl

/-! ## The text form -/

theorem toList_display (i : Identity) : i.display.toList = i.text :=
  String.toList_ofList

theorem display_injective : Function.Injective display := by
  intro i j h
  have htext : i.text = j.text := by rw [← toList_display, h, toList_display]
  have hj : parse i.text = .ok j := by rw [htext, parse_text]
  rw [parse_text] at hj
  exact Except.ok.inj hj

/-- **Identities and their texts.** The display of an identity is read as that identity, so no two
identities have the same. A text is read as an identity just if it is one of its spellings, and it
is refused with an error just if that is its fault. -/
theorem parse_exact :
    (∀ i : Identity, parse i.display.toList = .ok i) ∧ Function.Injective display ∧
      (∀ (s : List Char) (i : Identity), parse s = .ok i ↔ i.SpelledAs s) ∧
      ∀ (s : List Char) (e : IdentityError), parse s = .error e ↔ Faulty s e := by
  refine ⟨?_, display_injective, fun s i => parse_eq_ok_iff, fun s e => parse_eq_error_iff⟩
  intro i
  rw [toList_display, parse_text]

/-- An identifier in braces and in capitals, and a run number with a sign and zeros in front. -/
def respelled : List Char :=
  "AGT:\x7b550E8400-E29B-41D4-A716-446655440000\x7d:+0010V".toList

theorem parse_exact_respelled :
    parse respelled = .ok ⟨.agent, .ofNat 0x550e8400e29b41d4a716446655440000, some 1055⟩ ∧
      SpelledAs ⟨.agent, .ofNat 0x550e8400e29b41d4a716446655440000, some 1055⟩ respelled := by
  have hread : parse respelled =
      .ok ⟨.agent, .ofNat 0x550e8400e29b41d4a716446655440000, some 1055⟩ := rfl
  exact ⟨hread, (parse_exact.2.2.1 _ _).1 hread⟩

end Identity

end Overlay
