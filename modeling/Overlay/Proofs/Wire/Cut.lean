import Overlay.Proofs.Wire.Record

/-!
# Texts that are cut short

What a reader makes of a text whose end is missing, wherever the cut falls: between two tokens,
inside a string, an escape, a keyword or a numeral, or between the bytes of one character. A string,
an array, an object or a keyword that is cut off shows it (`Starves`). A numeral does not: cut behind
a digit it is a smaller number at the end of the bytes, and only what is read next finds that they
have ended (`Fades`). A smaller number never exceeds a limit that the whole one keeps, so no other
fault comes first.

`Reads` joins this with what `Takes` says of the whole text, and passes from the parts to arrays and
objects in the same way.
-/

namespace Overlay.Wire

open Reader

variable {α β D : Type}

/-! ## Cuts -/

/-- What is left of a text when some of its end is missing. -/
def Cut (p text : List UInt8) : Prop :=
  p <+: text ∧ p ≠ text

variable {p q text x y rest : List UInt8} {b : UInt8}

theorem not_cut_nil : ¬Cut p [] := fun h =>
  h.2 (List.prefix_nil.1 h.1)

theorem cut_cons (h : Cut p (b :: text)) : p = [] ∨ ∃ q, p = b :: q ∧ Cut q text := by
  obtain ⟨hfront, hne⟩ := h
  rcases List.prefix_cons_iff.1 hfront with rfl | ⟨q, rfl, hq⟩
  · exact .inl rfl
  · exact .inr ⟨q, rfl, hq, fun h => hne (by rw [h])⟩

theorem cut_singleton (h : Cut p [b]) : p = [] := by
  rcases cut_cons h with rfl | ⟨q, rfl, hq⟩
  · rfl
  · exact absurd hq not_cut_nil

theorem Cut.length_lt (h : Cut p text) : p.length < text.length :=
  Nat.lt_of_le_of_ne h.1.length_le fun hlen => h.2 (h.1.eq_of_length hlen)

/-- The cut falls into the first part or into the second one. -/
theorem cut_append (h : Cut p (x ++ y)) : Cut p x ∨ ∃ q, p = x ++ q ∧ Cut q y := by
  induction x generalizing p with
  | nil => exact .inr ⟨p, rfl, h⟩
  | cons b x ih =>
    rcases cut_cons h with rfl | ⟨q, rfl, hq⟩
    · exact .inl ⟨List.nil_prefix, by simp⟩
    · rcases ih hq with hq | ⟨r, rfl, hr⟩
      · exact .inl ⟨List.cons_prefix_cons.2 ⟨rfl, hq.1⟩, fun h => hq.2 (List.cons.inj h).2⟩
      · exact .inr ⟨r, rfl, hr⟩

theorem Reader.Closes.cut (h : Closes text) (hp : Cut p text) : Closes p := by
  cases text with
  | nil => exact absurd hp not_cut_nil
  | cons b text =>
    rcases cut_cons hp with rfl | ⟨q, rfl, _⟩
    · trivial
    · exact h

/-! ## Readers that run out of bytes -/

/-- The bytes have ended too early. -/
def Starved (result : Except Fault α) : Prop :=
  ∃ what, result = .error (.truncated what)

/-- A reader shows that its text is cut short, wherever the cut falls. -/
def Starves (read : Reader α) (text : List UInt8) : Prop :=
  ∀ p, Cut p text → Starved (read p)

/-- A reader whose text is cut short shows it or leaves nothing to the next one. -/
def Fades (read : Reader α) (text : List UInt8) : Prop :=
  ∀ p, Cut p text → Starved (read p) ∨ ∃ a, read p = .ok (a, [])

variable {read : Reader α} {next : α → Reader β}

theorem Starved.bind (h : Starved (read p)) : Starved ((read >>= next) p) := by
  obtain ⟨what, h⟩ := h
  exact ⟨what, bind_of_error h⟩

theorem Starved.after {a : α} (h : read p = .ok (a, q)) (hq : Starved (next a q)) :
    Starved ((read >>= next) p) := by
  rwa [bind_of_ok h]

theorem Starves.fades (h : Starves read text) : Fades read text := fun p hp =>
  .inl (h p hp)

/-- The cut falls into the text of the first reader or into what the second one reads. -/
theorem Starves.bind {a : α} (hread : Starves read x) (htakes : ∀ q, read (x ++ q) = .ok (a, q))
    (hnext : Starves (next a) y) : Starves (read >>= next) (x ++ y) := by
  intro p hp
  rcases cut_append hp with hp | ⟨q, rfl, hq⟩
  · exact (hread p hp).bind
  · exact Starved.after (htakes q) (hnext q hq)

theorem Fades.map (h : Fades read text) (f : α → β) : Fades (f <$> read) text := by
  intro p hp
  rcases h p hp with h | ⟨a, h⟩
  · exact .inl h.bind
  · exact .inr ⟨f a, bind_of_ok h⟩

theorem Starves.check {read : Streamed α} {room : Nat} {accept : α → Except Fault β}
    (h : Starves (read room) text) : Starves (read.check accept room) text := fun p hp =>
  (h p hp).bind

theorem starved_look {atEnd : Unfinished} : Starved (look atEnd []) := ⟨atEnd, rfl⟩

/-! ## Keywords and strings -/

theorem starves_keyword {cs : List Char} (h : ∀ c ∈ cs, c.toNat < 0x80) :
    Starves (keyword cs) (Utf8.encode cs) := by
  induction cs with
  | nil => exact fun p hp => absurd hp not_cut_nil
  | cons c cs ih =>
    intro p hp
    rw [encode_cons_ascii (h c List.mem_cons_self)] at hp
    rcases cut_cons hp with rfl | ⟨q, rfl, hq⟩
    · exact ⟨.value, rfl⟩
    · have hstep : keyword (c :: cs) (ascii c :: q) = keyword cs q := by
        rw [keyword]
        exact if_pos rfl
      rw [hstep]
      exact ih (fun d hd => h d (List.mem_cons_of_mem _ hd)) q hq

theorem stringBytes_nil : stringBytes [] = .error (.truncated .string) := by
  rw [stringBytes.eq_def]

/-- Of the four digits of an escaped code point some are missing. -/
theorem stringBytes_unit_short (h : q.length < 4) :
    stringBytes (backslash :: ascii 'u' :: q) = .error (.truncated .string) := by
  rw [stringBytes.eq_def]
  rcases q with _ | ⟨_, _ | ⟨_, _ | ⟨_, _ | ⟨_, q⟩⟩⟩⟩
  case cons.cons.cons.cons =>
    simp only [List.length_cons] at h
    omega
  all_goals rfl

/-- An escape, or a character that stands for itself, of which some bytes are missing. -/
theorem stringBytes_cut_escaped {c : Char} (hp : Cut p (Utf8.encode (Json.escaped c))) :
    stringBytes p = .error (.truncated .string) := by
  have hback : stringBytes [backslash] = .error (.truncated .string) := by
    rw [stringBytes.eq_def]
    rfl
  have letter : ∀ e : Char, e.toNat < 0x80 → Cut p (Utf8.encode ['\\', e]) →
      stringBytes p = .error (.truncated .string) := by
    intro e he hp
    rw [encode_cons_ascii (by decide), encode_cons_ascii he] at hp
    rcases cut_cons hp with rfl | ⟨q, rfl, hq⟩
    · exact stringBytes_nil
    · rw [cut_singleton hq]
      exact hback
  unfold Json.escaped at hp
  split at hp
  case h_1 => exact letter '"' (by decide) hp
  case h_2 => exact letter '\\' (by decide) hp
  case h_3 => exact letter 'b' (by decide) hp
  case h_4 => exact letter 't' (by decide) hp
  case h_5 => exact letter 'n' (by decide) hp
  case h_6 => exact letter 'f' (by decide) hp
  case h_7 => exact letter 'r' (by decide) hp
  case h_8 =>
    split at hp
    case isTrue hlt =>
      obtain ⟨h₁, h₂, h₃, h₄, henc, _⟩ := hexUnit_of_control hlt
      rw [encode_cons_ascii (by decide), encode_cons_ascii (by decide), henc] at hp
      rcases cut_cons hp with rfl | ⟨q, rfl, hq⟩
      · exact stringBytes_nil
      rcases cut_cons hq with rfl | ⟨r, rfl, hr⟩
      · exact hback
      · exact stringBytes_unit_short hr.length_lt
    case isFalse =>
      rw [Utf8.encode_cons, Utf8.encode_nil, List.append_nil] at hp
      by_cases hascii : c.toNat < 0x80
      · rw [Utf8.utf8EncodeChar_of_ascii hascii] at hp
        rw [cut_singleton hp]
        exact stringBytes_nil
      · have hp' : ∀ b ∈ p, 0x80 ≤ b.toNat := fun b hb =>
          Utf8.le_of_mem_utf8EncodeChar (by omega) (hp.1.subset hb)
        have h := @stringBytes_plains [] p hp'
        rwa [List.append_nil, stringBytes_nil] at h

theorem stringBytes_cut {s : List Char}
    (hp : Cut p (Utf8.encode (s.flatMap Json.escaped ++ ['"']))) :
    stringBytes p = .error (.truncated .string) := by
  induction s generalizing p with
  | nil =>
    rw [cut_singleton (b := quote) hp]
    exact stringBytes_nil
  | cons c s ih =>
    rw [List.flatMap_cons, List.append_assoc, Utf8.encode_append] at hp
    rcases cut_append hp with hp | ⟨q, rfl, hq⟩
    · exact stringBytes_cut_escaped hp
    · rw [stringBytes_escaped, ih hq]
      rfl

theorem starves_stringBody (s : String) :
    Starves stringBody (Utf8.encode (s.toList.flatMap Json.escaped ++ ['"'])) := by
  intro p hp
  exact ⟨.string, by rw [stringBody, stringBytes_cut hp]⟩

theorem starves_readString {room : Nat} (s : String) {expected : String} :
    Starves (readString expected room) (Utf8.encode (Json.stringText s)) := by
  intro p hp
  rw [encode_stringText] at hp
  rcases cut_cons hp with rfl | ⟨q, rfl, hq⟩
  · exact starved_look.bind
  · have hbody := starves_stringBody s q hq
    refine Starved.after (look_cons (by decide)) ?_
    exact Starved.after rfl hbody

/-! ## Numerals -/

/-- The front of a numeral is the numeral of a smaller number. -/
theorem digits_of_prefix {n : Nat} {ds : List Nat} (h : ds <+: Radix.digits 10 n) :
    ds = [] ∨ ∃ m ≤ n, (n ≠ 0 → m ≠ 0) ∧ ds = Radix.digits 10 m := by
  induction n using Nat.strongRecOn generalizing ds with
  | _ n ih =>
    by_cases hn : n < 10
    · rw [Radix.digits_of_lt hn] at h
      rcases List.prefix_cons_iff.1 h with rfl | ⟨t, rfl, ht⟩
      · exact .inl rfl
      · exact .inr ⟨n, Nat.le_refl n, id, by rw [Radix.digits_of_lt hn, List.prefix_nil.1 ht]⟩
    · have hle : 10 ≤ n := Nat.le_of_not_lt hn
      rw [Radix.digits_of_le (by decide) hle] at h
      rcases List.prefix_concat_iff.1 h with rfl | h
      · exact .inr ⟨n, Nat.le_refl n, id, (Radix.digits_of_le (by decide) hle).symm⟩
      · rcases ih (n / 10) (by omega) h with rfl | ⟨m, hm, hpos, rfl⟩
        · exact .inl rfl
        · exact .inr ⟨m, by omega, fun _ => hpos (by omega), rfl⟩

theorem encode_write_eq (n : Nat) :
    Utf8.encode (Radix.write 10 n) = (Radix.digits 10 n).map digitByte :=
  encode_digits (Radix.digits_lt (by decide) n)

theorem cut_write {n : Nat} (h : Cut p (Utf8.encode (Radix.write 10 n))) :
    p = [] ∨ ∃ m ≤ n, (n ≠ 0 → m ≠ 0) ∧ p = Utf8.encode (Radix.write 10 m) := by
  have hfront := h.1
  rw [encode_write_eq] at hfront
  obtain ⟨ds, hds, rfl⟩ : ∃ ds, ds <+: Radix.digits 10 n ∧ p = ds.map digitByte :=
    ⟨_, List.take_prefix p.length _, by rw [List.map_take, ← List.prefix_iff_eq_take.1 hfront]⟩
  rcases digits_of_prefix hds with rfl | ⟨m, hm, hpos, rfl⟩
  · exact .inl rfl
  · exact .inr ⟨m, hm, hpos, (encode_write_eq m).symm⟩

/-! ## Scalars of a record -/

variable {room : Nat}

/-- A keyword stands for a value: its first letter, its other letters, the value. -/
structure Spells (c : Char) (cs : List Char) (j : Json) : Prop where
  scalar : ∀ bytes, scalar? (ascii c) (ascii c :: bytes) =
    (do keyword cs; return some j : Reader (Option Json)) bytes
  ascii_letters : ∀ d ∈ c :: cs, d.toNat < 0x80
  not_space : isSpace (ascii c) = false

theorem spells_null : Spells 'n' ['u', 'l', 'l'] .null :=
  ⟨fun _ => rfl, by simp, by decide⟩

theorem spells_true : Spells 't' ['r', 'u', 'e'] (.bool true) :=
  ⟨fun _ => rfl, by simp, by decide⟩

theorem spells_false : Spells 'f' ['a', 'l', 's', 'e'] (.bool false) :=
  ⟨fun _ => rfl, by simp, by decide⟩

theorem spells_bool (b : Bool) :
    ∃ c cs, Spells c cs (.bool b) ∧ (Json.bool b).text = c :: cs := by
  cases b with
  | true => exact ⟨_, _, spells_true, rfl⟩
  | false => exact ⟨_, _, spells_false, rfl⟩

/-- Whoever asks for a scalar shows where a keyword is cut short. -/
theorem Spells.starves {c : Char} {cs : List Char} {j : Json} (h : Spells c cs j)
    {next : UInt8 → Option Json → Reader α} :
    Starves (do let b ← look .value; let s ← scalar? b; next b s : Reader α)
      (Utf8.encode (c :: cs)) := by
  intro p hp
  rw [encode_cons_ascii (h.ascii_letters c List.mem_cons_self)] at hp
  rcases cut_cons hp with rfl | ⟨q, rfl, hq⟩
  · exact starved_look.bind
  · have hletters : ∀ d ∈ cs, d.toNat < 0x80 := fun d hd =>
      h.ascii_letters d (List.mem_cons_of_mem _ hd)
    have hscalar : Starved (scalar? (ascii c) (ascii c :: q)) := by
      rw [h.scalar]
      exact (starves_keyword hletters q hq).bind
    exact Starved.after (look_cons h.not_space) hscalar.bind

theorem starves_readBool (b : Bool) : Starves (readBool room) (Utf8.encode (Json.bool b).text) := by
  obtain ⟨c, cs, hspells, htext⟩ := spells_bool b
  rw [htext]
  exact hspells.starves

theorem fades_readWord {n limit : Nat} (h : n < limit) (hlimit : limit ≤ wordLimit)
    {expected : String} :
    Fades (readWord limit expected room) (Utf8.encode (Json.nat n).text) := by
  intro p hp
  have hword : n < 0x10000000000000000 := Nat.lt_of_lt_of_le h hlimit
  rw [text_nat hword] at hp
  rcases cut_write hp with rfl | ⟨m, hm, _, rfl⟩
  · exact .inl starved_look.bind
  · have htakes : Takes (readWord limit expected room) (Json.nat m).text m :=
      takes_readWord (by omega) hlimit
    have hm' := htakes [] trivial
    rw [List.append_nil, text_nat (by omega)] at hm'
    exact .inr ⟨m, hm'⟩

theorem starves_readTag {names : List (String × α)} (k : String) :
    Starves (readTag names room) (Utf8.encode (Json.stringText k)) := by
  intro p hp
  have hname : Starves (readName names room) (Utf8.encode (Json.stringText k)) :=
    (starves_readString k).check
  have hread := hname p hp
  rw [encode_stringText] at hp
  rcases cut_cons hp with rfl | ⟨q, rfl, hq⟩
  · exact starved_look.bind
  · exact Starved.after (look_cons (by decide)) hread

/-! ## Reading, cut or not -/

/-- A reader takes a text as a value, and copes with every cut of the text. -/
structure Reads (read : Reader α) (s : List Char) (a : α) : Prop where
  takes : Takes read s a
  fades : Fades read (Utf8.encode s)

theorem Reads.map {s : List Char} {a : α} (h : Reads read s a) (f : α → β) :
    Reads (f <$> read) s (f a) :=
  ⟨h.takes.map f, h.fades.map f⟩

theorem Reads.streamed_map {read : Streamed α} {s : List Char} {a : α}
    (h : Reads (read room) s a) (f : α → β) : Reads ((f <$> read) room) s (f a) :=
  h.map f

/-- What comes behind a value shows the cut where the value does not. -/
theorem Reads.starves_bind {s : List Char} {a : α} (h : Reads read s a) (hy : Closes y)
    (hend : ∀ b, Starved (next b [])) (hnext : Starves (next a) y) :
    Starves (read >>= next) (Utf8.encode s ++ y) := by
  intro p hp
  rcases cut_append hp with hp | ⟨q, rfl, hq⟩
  · rcases h.fades p hp with hstarved | ⟨b, hb⟩
    · exact hstarved.bind
    · exact Starved.after hb (hend b)
  · exact Starved.after (h.takes q (hy.cut hq)) (hnext q hq)

theorem reads_readString (s : String) {expected : String} :
    Reads (readString expected room) (Json.stringText s) s :=
  ⟨takes_readString s, (starves_readString s).fades⟩

theorem reads_readBool (b : Bool) : Reads (readBool room) (Json.bool b).text b :=
  ⟨takes_readBool b, (starves_readBool b).fades⟩

theorem reads_readWord {n limit : Nat} (h : n < limit) (hlimit : limit ≤ wordLimit)
    {expected : String} : Reads (readWord limit expected room) (Json.nat n).text n :=
  ⟨takes_readWord h hlimit, fades_readWord h hlimit⟩

theorem reads_readIdentity (i : Identity) :
    Reads (readIdentity room) (Json.stringText i.display) i :=
  ⟨takes_readIdentity i, (starves_readString i.display).check.fades⟩

theorem reads_readUuid (u : Uuid) :
    Reads (readUuid room) (Json.stringText (String.ofList u.hyphenated)) u :=
  ⟨takes_readUuid u, (starves_readString _).check.fades⟩

theorem reads_readTag {names : List (String × α)} {k : String} {a : α}
    (h : named names k = .ok a) : Reads (readTag names room) (Json.stringText k) a :=
  ⟨takes_readTag h, (starves_readTag k).fades⟩

/-! ## Lists -/

variable {first : Bool} {rounds : Nat} {item : Reader α} {js : List Json} {as : List α}

/-- A reader of items reads the texts of items one by one. -/
inductive ReadsAll (item : Reader α) : List Json → List α → Prop
  | nil : ReadsAll item [] []
  | cons {j : Json} {a : α} {js : List Json} {as : List α} : Reads item j.text a →
      (∀ rest, Opens (Utf8.encode j.text ++ rest)) → ReadsAll item js as →
      ReadsAll item (j :: js) (a :: as)

theorem ReadsAll.takesAll (h : ReadsAll item js as) : TakesAll item js as := by
  induction h with
  | nil => exact .nil
  | cons hj hopens _ ih => exact .cons hj.takes hopens ih

theorem Opens.cut (h : Opens text) (hp : Cut p text) (hne : p ≠ []) : Opens p := by
  cases text with
  | nil => exact h.elim
  | cons b text =>
    rcases cut_cons hp with rfl | ⟨q, rfl, _⟩
    · exact absurd rfl hne
    · exact h

theorem starved_nextElement_nil : Starved (nextElement first []) :=
  starved_look.bind

/-- Behind a comma an element has to come. -/
theorem starved_nextElement_separator :
    Starved (nextElement first (Utf8.encode (if first then [] else [',']))) := by
  cases first with
  | true => exact starved_nextElement_nil
  | false => exact ⟨.value, rfl⟩

theorem starved_elementsIn_nil : Starved (elementsIn item rounds first []) := by
  cases rounds with
  | zero => exact ⟨.list, rfl⟩
  | succ rounds => exact starved_nextElement_nil.bind

theorem starved_elementsIn (h : ReadsAll item js as)
    (hp : Cut p (Utf8.encode (itemsText first js) ++ [closeBracket])) :
    Starved (elementsIn item rounds first p) := by
  induction h generalizing rounds first p with
  | nil =>
    rw [cut_singleton (b := closeBracket) hp]
    exact starved_elementsIn_nil
  | @cons j a js as hj hopens _ ih =>
    cases rounds with
    | zero => exact ⟨.list, rfl⟩
    | succ rounds =>
      simp only [itemsText, Utf8.encode_append, List.append_assoc] at hp
      rcases cut_append hp with hp | ⟨q, rfl, hq⟩
      · cases first with
        | true => exact absurd hp not_cut_nil
        | false =>
          rw [cut_singleton (b := comma) hp]
          exact starved_elementsIn_nil
      · by_cases hne : q = []
        · rw [hne, List.append_nil]
          exact starved_nextElement_separator.bind
        · refine Starved.after (nextElement_item ((hopens _).cut hq hne)) ?_
          rw [if_pos rfl]
          rcases cut_append hq with hq | ⟨r, rfl, hr⟩
          · rcases hj.fades q hq with hstarved | ⟨b, hb⟩
            · exact hstarved.bind
            · exact Starved.after hb starved_elementsIn_nil.bind
          · exact Starved.after (hj.takes r (Closes.cut (closes_itemsText js) hr)) (ih hr).bind

theorem cut_array (h : Cut p (Utf8.encode (Json.array js).text)) :
    p = [] ∨ ∃ q, p = openBracket :: q ∧
      Cut q (Utf8.encode (itemsText true js) ++ [closeBracket]) := by
  have htext := @encode_array [] js
  rw [List.append_nil] at htext
  rw [htext] at h
  exact cut_cons h

theorem starves_readList {item : Streamed α} (h : ReadsAll (item room) js as) :
    Starves (readList item (room + 1)) (Utf8.encode (Json.array js).text) := by
  intro p hp
  rcases cut_array hp with rfl | ⟨q, rfl, hq⟩
  · exact starved_look.bind
  · have hitems : Starved (elements (item room) q) := (starved_elementsIn h hq).bind
    exact Starved.after (look_cons (by decide)) hitems

theorem reads_readList {item : Streamed α} (h : ReadsAll (item room) js as) :
    Reads (readList item (room + 1)) (Json.array js).text as :=
  ⟨takes_readList h.takesAll, (starves_readList h).fades⟩

/-! ## Objects -/

variable {step : D → String → Reader D} {d d' : D} {k : String} {ms : List (String × Json)}
  {a : α}

/-- Members are read one after the other, each on what the earlier ones have left. -/
inductive ReadsMembers (step : D → String → Reader D) : D → List (String × Json) → D → Prop
  | nil (d : D) : ReadsMembers step d [] d
  | cons {d d' d'' : D} {k : String} {j : Json} {ms : List (String × Json)} :
      Reads (step d k) (':' :: j.text) d' → ReadsMembers step d' ms d'' →
      ReadsMembers step d ((k, j) :: ms) d''

theorem ReadsMembers.append {d'' : D} {ns : List (String × Json)} (h : ReadsMembers step d ms d')
    (hns : ReadsMembers step d' ns d'') : ReadsMembers step d (ms ++ ns) d'' := by
  induction h with
  | nil d => exact hns
  | cons hj _ ih => exact .cons hj (ih hns)

theorem ReadsMembers.folds (h : ReadsMembers step d ms d') : Folds step d ms d' := by
  induction h with
  | nil d => exact .nil d
  | cons hj _ ih => exact .cons hj.takes ih

theorem starved_nextKey_nil : Starved (nextKey first []) :=
  starved_look.bind

theorem starves_nextKey (k : String) :
    Starves (nextKey first) (Utf8.encode ((if first then [] else [',']) ++ Json.stringText k)) := by
  intro p hp
  -- What is left of the key behind its opening quote.
  have hkey : ∀ q, Cut q (Utf8.encode (k.toList.flatMap Json.escaped ++ ['"'])) →
      Starved (stringBody q) := starves_stringBody k
  cases first with
  | true =>
    simp only [if_true, List.nil_append, encode_stringText] at hp
    rcases cut_cons hp with rfl | ⟨q, rfl, hq⟩
    · exact starved_nextKey_nil
    · refine Starved.after (look_cons (by decide)) ?_
      exact (hkey q hq).bind
  | false =>
    have hcomma : ∀ s : List Char, Utf8.encode (',' :: s) = comma :: Utf8.encode s := fun _ => rfl
    simp only [Bool.false_eq_true, if_false, List.cons_append, List.nil_append, hcomma,
      encode_stringText] at hp
    rcases cut_cons hp with rfl | ⟨q, rfl, hq⟩
    · exact starved_nextKey_nil
    rcases cut_cons hq with rfl | ⟨r, rfl, hr⟩
    · exact ⟨.value, rfl⟩
    · refine Starved.after (look_cons (by decide)) ?_
      rw [if_neg (by decide), if_pos (by decide)]
      refine Starved.after rfl ?_
      refine Starved.after (look_cons (by decide)) ?_
      exact (hkey r hr).bind

theorem starved_foldMembersIn_nil : Starved (foldMembersIn step rounds first d []) := by
  cases rounds with
  | zero => exact ⟨.object, rfl⟩
  | succ rounds => exact starved_nextKey_nil.bind

theorem starved_foldMembersIn (h : ReadsMembers step d ms d')
    (hp : Cut p (Utf8.encode (membersText first ms) ++ [closeBrace])) :
    Starved (foldMembersIn step rounds first d p) := by
  induction h generalizing rounds first p with
  | nil d =>
    rw [cut_singleton (b := closeBrace) hp]
    exact starved_foldMembersIn_nil
  | @cons d d' d'' k j ms hj _ ih =>
    cases rounds with
    | zero => exact ⟨.object, rfl⟩
    | succ rounds =>
      have htext : Utf8.encode (membersText first ((k, j) :: ms)) ++ [closeBrace] =
          Utf8.encode ((if first then [] else [',']) ++ Json.stringText k) ++
            (Utf8.encode (':' :: j.text) ++ (Utf8.encode (membersText false ms) ++ [closeBrace])) := by
        simp [membersText]
      rw [htext] at hp
      rcases cut_append hp with hp | ⟨q, rfl, hq⟩
      · exact (starves_nextKey k p hp).bind
      · refine Starved.after (nextKey_key k) ?_
        rcases cut_append hq with hq | ⟨r, rfl, hr⟩
        · rcases hj.fades q hq with hstarved | ⟨d', hd'⟩
          · exact hstarved.bind
          · exact Starved.after hd' starved_foldMembersIn_nil
        · exact Starved.after (hj.takes r (Closes.cut (closes_membersText ms) hr)) (ih hr)

theorem starved_colonMark_nil : Starved (colonMark []) :=
  starved_look.bind

/-- A colon and a value of which something is missing. -/
theorem Fades.colon {next : Unit → Reader β} {s : List Char} (h : Fades (next ()) (Utf8.encode s)) :
    Fades (colonMark >>= next) (Utf8.encode (':' :: s)) := by
  intro p hp
  rw [encode_cons_ascii (by decide)] at hp
  rcases cut_cons hp with rfl | ⟨q, rfl, hq⟩
  · exact .inl starved_colonMark_nil.bind
  · rw [bind_of_ok (rfl : colonMark (ascii ':' :: q) = .ok ((), q))]
    exact h q hq

theorem starves_colonMark : Starves colonMark [colon] := by
  intro p hp
  rw [cut_singleton hp]
  exact starved_colonMark_nil

theorem cut_object (h : Cut p (Utf8.encode (Json.object ms).text)) :
    p = [] ∨ ∃ q, p = openBrace :: q ∧
      Cut q (Utf8.encode (membersText true ms) ++ [closeBrace]) := by
  have htext := @encode_object [] ms
  rw [List.append_nil] at htext
  rw [htext] at h
  exact cut_cons h

/-- A reader that goes on behind an opening brace. -/
theorem starves_object {read inside : Reader α} (hend : Starved (read []))
    (hopen : ∀ bytes, read (openBrace :: bytes) = inside bytes)
    (h : Starves inside (Utf8.encode (membersText true ms) ++ [closeBrace])) :
    Starves read (Utf8.encode (Json.object ms).text) := by
  intro p hp
  rcases cut_object hp with rfl | ⟨q, rfl, hq⟩
  · exact hend
  · rw [hopen]
    exact h q hq

namespace Schema

variable {S : Schema Streamed D α}

theorem reads_readMember {f : Field Streamed D} {j : Json} {set : D → D} (hf : S.field? k = some f)
    (hgiven : f.isGiven d = false) (hvalue : Reads (f.value room) j.text set) :
    Reads (S.readMember room d k) (':' :: j.text) (set d) := by
  refine ⟨takes_readMember hf hgiven hvalue.takes, ?_⟩
  have hread : S.readMember room d k =
      (do colonMark; (fun set => set d) <$> f.value room : Reader D) := by
    simp only [readMember, hf, hgiven, Bool.false_eq_true, if_false]
    rfl
  rw [hread]
  exact (hvalue.fades.map _).colon

theorem starves_readMembers (h : ReadsMembers (S.readMember room) S.blank ms d) :
    Starves (S.readMembers room) (Utf8.encode (membersText true ms) ++ [closeBrace]) :=
  fun _ hp => (starved_foldMembersIn h hp).bind

theorem starves_read (h : ReadsMembers (S.readMember room) S.blank ms d) :
    Starves (S.read (room + 1)) (Utf8.encode (Json.object ms).text) :=
  starves_object starved_look.bind S.read_openBrace (starves_readMembers h)

theorem starves_readObject (h : ReadsMembers (S.readMember room) S.blank ms d) :
    Starves (S.readObject (room + 1)) (Utf8.encode (Json.object ms).text) :=
  starves_object starved_look.bind S.readObject_openBrace (starves_readMembers h)

theorem reads_read (h : ReadsMembers (S.readMember room) S.blank ms d)
    (hfinish : S.finish d = .ok a) : Reads (S.read (room + 1)) (Json.object ms).text a :=
  ⟨takes_read h.folds hfinish, (starves_read h).fades⟩

theorem reads_readObject (h : ReadsMembers (S.readMember room) S.blank ms d)
    (hfinish : S.finish d = .ok a) : Reads (S.readObject (room + 1)) (Json.object ms).text a :=
  ⟨takes_readObject h.folds hfinish, (starves_readObject h).fades⟩

end Schema

end Overlay.Wire
