import Overlay.Proofs.Names
import Overlay.Proofs.Wire.Token
import Overlay.Wire.Record

/-!
# Records that have been written

`Takes` says that a reader takes the text of a value off the front, whatever closes the value. It is
passed from the parts of an object to the object by `Folds`: members are read one after the other,
and each finds the draft that the earlier ones have left.
-/

namespace Overlay.Wire

open Reader

/-- A reader takes a text off the front and gives a value, whatever closes it. -/
def Takes {α : Type} (read : Reader α) (s : List Char) (a : α) : Prop :=
  ∀ rest, Closes rest → read (Utf8.encode s ++ rest) = .ok (a, rest)

variable {α β D : Type} {read : Reader α} {s : List Char} {a : α} {room n limit : Nat}
  {rest bytes : List UInt8} {first : Bool} {k : String} {j : Json}

theorem Takes.map (h : Takes read s a) (f : α → β) : Takes (f <$> read) s (f a) := by
  intro rest hrest
  exact bind_of_ok (h rest hrest)

theorem Takes.streamed_map {read : Streamed α} (h : Takes (read room) s a) (f : α → β) :
    Takes ((f <$> read) room) s (f a) :=
  h.map f

theorem Takes.check {read : Streamed α} {accept : α → Except Fault β} {b : β}
    (h : Takes (read room) s a) (hb : accept a = .ok b) : Takes (read.check accept room) s b := by
  intro rest hrest
  refine (bind_of_ok (h rest hrest)).trans ?_
  rw [hb]
  rfl

/-! ## Scalars -/

theorem encode_stringText (s : String) :
    Utf8.encode (Json.stringText s) =
      quote :: Utf8.encode (s.toList.flatMap Json.escaped ++ ['"']) := by
  rw [Json.stringText, List.cons_append, encode_cons_ascii (by decide)]
  rfl

theorem takes_readString (s : String) {expected : String} :
    Takes (readString expected room) (Json.stringText s) s := by
  intro rest _
  rw [encode_stringText, List.cons_append]
  refine (bind_of_ok (look_cons (by decide))).trans ?_
  rw [if_pos rfl]
  exact stringBody_encode s

theorem takes_readBool (b : Bool) : Takes (readBool room) (Json.bool b).text b := by
  intro rest _
  cases b <;> rfl

theorem text_nat (h : n < 0x10000000000000000) : (Json.nat n).text = Radix.write 10 n := by
  have hrange : -0x8000000000000000 ≤ (n : Int) ∧ (n : Int) < 0x10000000000000000 := by omega
  have hneg : ¬(n : Int) < 0 := by omega
  simp [Json.nat, Number.ofInt, hrange, Json.text, Json.numberText, Json.wholeText, hneg]

theorem number_ofUInt64 (n : UInt64) : Json.number (.ofUInt64 n) = Json.nat n.toNat := by
  have hlt := n.toNat_lt
  have hrange : -0x8000000000000000 ≤ (n.toNat : Int) ∧ (n.toNat : Int) < 0x10000000000000000 := by
    omega
  simp [Json.nat, Number.ofInt, Number.ofUInt64, hrange]

/-- A numeral begins with a digit. -/
theorem encode_write (n : Nat) :
    ∃ d ds, d < 10 ∧ Utf8.encode (Radix.write 10 n) = digitByte d :: ds := by
  have hlt : ∀ d ∈ Radix.digits 10 n, d < 10 := Radix.digits_lt (by decide) n
  rw [Radix.write, encode_digits hlt]
  cases hds : Radix.digits 10 n with
  | nil => exact absurd hds (Radix.digits_ne_nil _ _)
  | cons d ds => exact ⟨d, _, hlt d (hds ▸ List.mem_cons_self), rfl⟩

theorem scalar?_digitByte {d : Nat} (hd : d < 10) :
    scalar? (digitByte d) = (do return some (.number (← number false)) : Reader (Option Json)) := by
  have hall : ∀ d < 10, digitByte d ≠ ascii 'n' ∧ digitByte d ≠ ascii 't' ∧
      digitByte d ≠ ascii 'f' ∧ digitByte d ≠ ascii '-' := by decide
  obtain ⟨hn, ht, hf, hm⟩ := hall d hd
  rw [scalar?, if_neg hn, if_neg ht, if_neg hf, if_neg hm, if_pos (isDigit_digitByte hd).1]

theorem integerOf_nat (h : n < wordLimit) :
    ∃ hrange, integerOf false n = .ok (.whole n hrange) := by
  have hlt : n < 0x10000000000000000 := h
  have hrange : -0x8000000000000000 ≤ (n : Int) ∧ (n : Int) < 0x10000000000000000 := by omega
  exact ⟨hrange, by simp [integerOf, hrange]⟩

theorem takes_readWord (h : n < limit) (hlimit : limit ≤ wordLimit) {expected : String} :
    Takes (readWord limit expected room) (Json.nat n).text n := by
  intro rest hrest
  have hword : n < wordLimit := Nat.lt_of_lt_of_le h hlimit
  rw [text_nat hword]
  obtain ⟨hrange, hint⟩ := integerOf_nat hword
  have hnum : number false (Utf8.encode (Radix.write 10 n) ++ rest) = .ok (.whole n hrange, rest) := by
    rw [number_write hword hrest, hint]
    rfl
  obtain ⟨d, ds, hd, henc⟩ := encode_write n
  rw [henc, List.cons_append] at hnum ⊢
  have hspace : ∀ d < 10, isSpace (digitByte d) = false := by decide
  refine (bind_of_ok (look_cons (hspace d hd))).trans ?_
  rw [scalar?_digitByte hd]
  refine (bind_of_ok (bind_of_ok hnum)).trans ?_
  have hin : 0 ≤ (n : Int) ∧ (n : Int) < limit := by omega
  simp [Reader.lift, wordOf, hin]

theorem takes_readIdentity (i : Identity) : Takes (readIdentity room) (Json.stringText i.display) i := by
  refine Takes.check (takes_readString i.display) ?_
  simp [identityOf, Identity.display, Identity.parse_text]

theorem takes_readUuid (u : Uuid) :
    Takes (readUuid room) (Json.stringText (String.ofList u.hyphenated)) u := by
  refine Takes.check (takes_readString (String.ofList u.hyphenated)) ?_
  simp [uuidOf, Uuid.parse?_hyphenated]

theorem takes_readTag {names : List (String × α)} (h : named names k = .ok a) :
    Takes (readTag names room) (Json.stringText k) a := by
  intro rest hrest
  have hname : Takes (readName names room) (Json.stringText k) a :=
    Takes.check (takes_readString k) h
  have hread := hname rest hrest
  rw [encode_stringText, List.cons_append] at hread ⊢
  refine (bind_of_ok (look_cons (by decide))).trans ?_
  rw [if_pos rfl]
  exact hread

/-! ## Lists -/

/-- How the text of an array or an object begins, so that nobody takes it for an end. -/
def Opens : List UInt8 → Prop
  | [] => False
  | b :: _ => isSpace b = false ∧ b ≠ closeBracket

/-- The text of items, each but the first behind a comma. -/
def itemsText : Bool → List Json → List Char
  | _, [] => []
  | first, j :: js => (if first then [] else [',']) ++ j.text ++ itemsText false js

theorem textItems_eq (js : List Json) : Json.textItems js = itemsText false js := by
  induction js with
  | nil => rfl
  | cons j js ih => simp [Json.textItems, itemsText, ih]

theorem text_array (js : List Json) : (Json.array js).text = '[' :: itemsText true js ++ [']'] := by
  cases js with
  | nil => rfl
  | cons j js => simp [Json.text, itemsText, textItems_eq]

theorem encode_close : Utf8.encode [']'] = [closeBracket] := rfl

theorem encode_array (js : List Json) :
    Utf8.encode (Json.array js).text ++ rest =
      openBracket :: (Utf8.encode (itemsText true js) ++ closeBracket :: rest) := by
  rw [text_array, List.cons_append, encode_cons_ascii (by decide), Utf8.encode_append,
    encode_close, List.cons_append, List.append_assoc]
  rfl

/-- Behind an item comes a comma or the bracket. -/
theorem closes_itemsText (js : List Json) :
    Closes (Utf8.encode (itemsText false js) ++ closeBracket :: rest) := by
  cases js with
  | nil => exact .inr (.inr (.inl rfl))
  | cons j js =>
    simp only [itemsText, Bool.false_eq_true, if_false, List.cons_append, List.nil_append]
    rw [encode_cons_ascii (by decide)]
    exact .inl rfl

theorem nextElement_close : nextElement first (closeBracket :: rest) = .ok (false, closeBracket :: rest) := by
  refine (bind_of_ok (look_cons (by decide))).trans ?_
  rfl

theorem nextElement_item (h : Opens bytes) :
    nextElement first (Utf8.encode (if first then [] else [',']) ++ bytes) = .ok (true, bytes) := by
  cases bytes with
  | nil => exact h.elim
  | cons b bytes =>
    obtain ⟨hspace, hb⟩ := h
    cases first with
    | true =>
      refine (bind_of_ok (look_cons hspace)).trans ?_
      rw [if_neg hb]
      rfl
    | false =>
      have hcomma : Utf8.encode (if false = true then [] else [',']) = [comma] := rfl
      rw [hcomma, List.cons_append, List.nil_append]
      refine (bind_of_ok (look_cons (by decide))).trans ?_
      rw [if_neg (by decide), if_neg (by decide), if_pos rfl]
      simp only [bind_apply, skip, List.tail_cons, look_cons hspace, if_neg hb]
      rfl

/-- A reader of items takes the texts of items one by one. -/
inductive TakesAll (item : Reader α) : List Json → List α → Prop
  | nil : TakesAll item [] []
  | cons {j : Json} {a : α} {js : List Json} {as : List α} : Takes item j.text a →
      (∀ rest, Opens (Utf8.encode j.text ++ rest)) → TakesAll item js as →
      TakesAll item (j :: js) (a :: as)

/-- Items that are taken one by one stand in front of what is made of the others. -/
theorem elementsIn_append {item : Reader α} {js : List Json} {as : List α} {rounds : Nat}
    (h : TakesAll item js as) (ks : List Json) :
    elementsIn item (js.length + rounds) first
        (Utf8.encode (itemsText first (js ++ ks)) ++ closeBracket :: rest) =
      (elementsIn item rounds (first && js.isEmpty)
        (Utf8.encode (itemsText (first && js.isEmpty) ks) ++ closeBracket :: rest)).map
          fun r => (as ++ r.1, r.2) := by
  induction h generalizing first with
  | nil =>
    rw [List.length_nil, Nat.zero_add, List.isEmpty_nil, Bool.and_true, List.nil_append]
    generalize elementsIn item rounds first _ = result
    cases result <;> rfl
  | @cons j a js as hj hopens _ ih =>
    have hitem := hj (Utf8.encode (itemsText false (js ++ ks)) ++ closeBracket :: rest)
      (closes_itemsText _)
    have htail := @ih false
    rw [Bool.false_and] at htail
    rw [List.length_cons, Nat.add_right_comm, List.isEmpty_cons, Bool.and_false]
    simp only [List.cons_append, itemsText, Utf8.encode_append, List.append_assoc]
    refine (bind_of_ok (nextElement_item (hopens _))).trans ?_
    rw [if_pos rfl]
    refine (bind_of_ok hitem).trans ?_
    rw [bind_apply, htail]
    generalize elementsIn item rounds false _ = result
    cases result <;> rfl

theorem elementsIn_items {item : Reader α} {js : List Json} {as : List α} {rounds : Nat}
    (h : TakesAll item js as) (hrounds : js.length < rounds) :
    elementsIn item rounds first (Utf8.encode (itemsText first js) ++ closeBracket :: rest) =
      .ok (as, closeBracket :: rest) := by
  obtain ⟨more, rfl⟩ := Nat.exists_eq_add_of_lt hrounds
  have hend : ∀ first, elementsIn item (more + 1) first (closeBracket :: rest) =
      .ok ([], closeBracket :: rest) := fun _ => (bind_of_ok nextElement_close).trans rfl
  have happend := @elementsIn_append _ rest first _ _ _ (more + 1) h []
  rw [List.append_nil, itemsText, Utf8.encode_nil, List.nil_append, hend] at happend
  simpa only [Except.map, List.append_nil, Nat.add_assoc] using happend

theorem length_le_encode (s : List Char) : s.length ≤ (Utf8.encode s).length := by
  induction s with
  | nil => exact Nat.le_refl _
  | cons c s ih =>
    have hpos : 0 < (String.utf8EncodeChar c).length := by
      rw [String.length_utf8EncodeChar]
      exact Char.utf8Size_pos c
    rw [Utf8.encode_cons, List.length_append, List.length_cons]
    omega

theorem TakesAll.length_le {item : Reader α} {js : List Json} {as : List α}
    (h : TakesAll item js as) : js.length ≤ (itemsText first js).length := by
  induction h generalizing first with
  | nil => exact Nat.le_refl _
  | @cons j a js as _ hopens _ ih =>
    have hj : j.text ≠ [] := fun hnil => by simpa [hnil, Opens] using hopens []
    have hpos := List.length_pos_iff.2 hj
    have hjs := @ih false
    simp only [itemsText, List.length_append, List.length_cons]
    omega

/-- An array is read up to its bracket, which goes with it. -/
theorem elements_items {item : Reader α} {js : List Json} {as : List α} (h : TakesAll item js as) :
    elements item (Utf8.encode (itemsText true js) ++ closeBracket :: rest) = .ok (as, rest) := by
  have hitems := length_le_encode (itemsText true js)
  have hlen := @TakesAll.length_le _ true _ _ _ h
  have helems : elementsIn item ((Utf8.encode (itemsText true js) ++ closeBracket :: rest).length + 1)
      true (Utf8.encode (itemsText true js) ++ closeBracket :: rest) =
      .ok (as, closeBracket :: rest) := by
    refine elementsIn_items h ?_
    rw [List.length_append]
    omega
  have hend : endArray (closeBracket :: rest) = .ok ((), rest) := rfl
  refine (bind_of_ok helems).trans ?_
  exact (bind_of_ok hend).trans rfl

theorem takes_readList {item : Streamed α} {js : List Json} {as : List α}
    (h : TakesAll (item room) js as) :
    Takes (readList item (room + 1)) (Json.array js).text as := by
  intro rest _
  rw [encode_array]
  refine (bind_of_ok (look_cons (by decide))).trans ?_
  rw [if_pos rfl]
  refine (bind_of_ok rfl).trans ?_
  exact elements_items h

/-! ## Objects -/

/-- The text of members, each but the first behind a comma. -/
def membersText : Bool → List (String × Json) → List Char
  | _, [] => []
  | first, (k, j) :: ms =>
    (if first then [] else [',']) ++ Json.stringText k ++ ':' :: j.text ++ membersText false ms

theorem textMembers_eq (ms : List (String × Json)) : Json.textMembers ms = membersText false ms := by
  induction ms with
  | nil => rfl
  | cons m ms ih =>
    obtain ⟨k, j⟩ := m
    simp [Json.textMembers, membersText, ih]

theorem text_object (ms : List (String × Json)) :
    (Json.object ms).text = Char.ofNat 0x7B :: membersText true ms ++ [Char.ofNat 0x7D] := by
  cases ms with
  | nil => rfl
  | cons m ms =>
    obtain ⟨k, j⟩ := m
    simp [Json.text, membersText, textMembers_eq]

theorem encode_object (ms : List (String × Json)) :
    Utf8.encode (Json.object ms).text ++ rest =
      openBrace :: (Utf8.encode (membersText true ms) ++ closeBrace :: rest) := by
  rw [text_object, List.cons_append, encode_cons_ascii (by decide), Utf8.encode_append,
    List.cons_append, List.append_assoc]
  rfl

theorem opens_object (ms : List (String × Json)) :
    Opens (Utf8.encode (Json.object ms).text ++ rest) := by
  rw [encode_object]
  exact ⟨by decide, by decide⟩

/-- Behind a member comes a comma or the brace. -/
theorem closes_membersText (ms : List (String × Json)) :
    Closes (Utf8.encode (membersText false ms) ++ closeBrace :: rest) := by
  cases ms with
  | nil => exact .inr (.inl rfl)
  | cons m ms =>
    simp only [membersText, Bool.false_eq_true, if_false, List.cons_append, List.nil_append]
    rw [encode_cons_ascii (by decide)]
    exact .inl rfl

theorem nextKey_close : nextKey first (closeBrace :: rest) = .ok (none, closeBrace :: rest) := by
  refine (bind_of_ok (look_cons (by decide))).trans ?_
  rfl

theorem nextKey_key (k : String) :
    nextKey first (Utf8.encode ((if first then [] else [',']) ++ Json.stringText k) ++ rest) =
      .ok (some k, rest) := by
  have hbody := @stringBody_encode rest k
  cases first with
  | true =>
    simp only [if_true, List.nil_append, encode_stringText, List.cons_append]
    refine (bind_of_ok (look_cons (by decide))).trans ?_
    rw [if_neg (by decide), if_neg (by decide), if_neg (by decide), if_pos rfl]
    refine (bind_of_ok rfl).trans ?_
    exact (bind_of_ok hbody).trans rfl
  | false =>
    have hcomma : ∀ s : List Char, Utf8.encode (',' :: s) = comma :: Utf8.encode s := fun _ => rfl
    simp only [Bool.false_eq_true, if_false, List.cons_append, List.nil_append, hcomma,
      encode_stringText]
    refine (bind_of_ok (look_cons (by decide))).trans ?_
    rw [if_neg (by decide), if_pos (by decide)]
    refine (bind_of_ok rfl).trans ?_
    refine (bind_of_ok (look_cons (by decide))).trans ?_
    rw [if_neg (by decide), if_pos rfl]
    refine (bind_of_ok rfl).trans ?_
    exact (bind_of_ok hbody).trans rfl

/-- Members are read one after the other, each on what the earlier ones have left. -/
inductive Folds (step : D → String → Reader D) : D → List (String × Json) → D → Prop
  | nil (d : D) : Folds step d [] d
  | cons {d d' d'' : D} {k : String} {j : Json} {ms : List (String × Json)} :
      Takes (step d k) (':' :: j.text) d' → Folds step d' ms d'' → Folds step d ((k, j) :: ms) d''

theorem encode_colon (s : List Char) : Utf8.encode (':' :: s) = colon :: Utf8.encode s := rfl

/-- The text of members is a key, a colon and a value, and the other members. -/
theorem encode_members (first : Bool) (k : String) (j : Json) (ms : List (String × Json)) :
    Utf8.encode (membersText first ((k, j) :: ms)) ++ closeBrace :: rest =
      Utf8.encode ((if first then [] else [',']) ++ Json.stringText k) ++
        (Utf8.encode (':' :: j.text) ++ (Utf8.encode (membersText false ms) ++ closeBrace :: rest)) := by
  simp [membersText]

/-- Behind members that are read one after the other come the others. -/
theorem foldMembersIn_append {step : D → String → Reader D} {d d' : D}
    {ms : List (String × Json)} {rounds : Nat} (h : Folds step d ms d') (ns : List (String × Json)) :
    foldMembersIn step (ms.length + rounds) first d
        (Utf8.encode (membersText first (ms ++ ns)) ++ closeBrace :: rest) =
      foldMembersIn step rounds (first && ms.isEmpty) d'
        (Utf8.encode (membersText (first && ms.isEmpty) ns) ++ closeBrace :: rest) := by
  induction h generalizing first with
  | nil d => rw [List.length_nil, Nat.zero_add, List.isEmpty_nil, Bool.and_true, List.nil_append]
  | @cons d d' d'' k j ms hj _ ih =>
    have hmember := hj (Utf8.encode (membersText false (ms ++ ns)) ++ closeBrace :: rest)
      (closes_membersText _)
    have htail := @ih false
    rw [Bool.false_and] at htail
    rw [List.length_cons, Nat.add_right_comm, List.isEmpty_cons, Bool.and_false, List.cons_append,
      encode_members]
    refine (bind_of_ok (nextKey_key k)).trans ?_
    exact (bind_of_ok hmember).trans htail

theorem foldMembersIn_members {step : D → String → Reader D} {d d' : D}
    {ms : List (String × Json)} {rounds : Nat} (h : Folds step d ms d')
    (hrounds : ms.length < rounds) :
    foldMembersIn step rounds first d (Utf8.encode (membersText first ms) ++ closeBrace :: rest) =
      .ok (d', closeBrace :: rest) := by
  obtain ⟨more, rfl⟩ := Nat.exists_eq_add_of_lt hrounds
  have hend : ∀ first, foldMembersIn step (more + 1) first d' (closeBrace :: rest) =
      .ok (d', closeBrace :: rest) := fun _ => (bind_of_ok nextKey_close).trans rfl
  have happend := @foldMembersIn_append _ rest first _ _ _ _ (more + 1) h []
  rwa [List.append_nil, membersText, Utf8.encode_nil, List.nil_append, hend] at happend

theorem length_le_membersText (ms : List (String × Json)) :
    ms.length ≤ (membersText first ms).length := by
  induction ms generalizing first with
  | nil => exact Nat.le_refl _
  | cons m ms ih =>
    have hms := @ih false
    simp only [membersText, List.length_append, List.length_cons]
    omega

theorem foldMembers_members {step : D → String → Reader D} {d d' : D} {ms : List (String × Json)}
    (h : Folds step d ms d') :
    foldMembers step true d (Utf8.encode (membersText true ms) ++ closeBrace :: rest) =
      .ok (d', closeBrace :: rest) := by
  have hmembers := length_le_encode (membersText true ms)
  have hlen := @length_le_membersText true ms
  refine foldMembersIn_members h ?_
  rw [List.length_append]
  omega

theorem colonMark_colon (s : List Char) :
    colonMark (Utf8.encode (':' :: s) ++ rest) = .ok ((), Utf8.encode s ++ rest) := by
  rw [encode_cons_ascii (by decide), List.cons_append]
  refine (bind_of_ok (look_cons (by decide))).trans ?_
  rfl

theorem endObject_close : endObject (closeBrace :: rest) = .ok ((), rest) := by
  refine (bind_of_ok (look_cons (by decide))).trans ?_
  rfl

namespace Schema

variable {S : Schema Streamed D α} {ms : List (String × Json)} {d : D}

/-- A member whose field has not been given yet sets it. -/
theorem takes_readMember {f : Field Streamed D} {set : D → D} (hf : S.field? k = some f)
    (hgiven : f.isGiven d = false) (hvalue : Takes (f.value room) j.text set) :
    Takes (S.readMember room d k) (':' :: j.text) (set d) := by
  intro rest hrest
  simp only [readMember, hf, hgiven, Bool.false_eq_true, if_false]
  refine (bind_of_ok (colonMark_colon _)).trans ?_
  exact (bind_of_ok (hvalue rest hrest)).trans rfl

theorem readMembers_members (hfolds : Folds (S.readMember room) S.blank ms d)
    (hfinish : S.finish d = .ok a) :
    S.readMembers room (Utf8.encode (membersText true ms) ++ closeBrace :: rest) =
      .ok (a, rest) := by
  refine (bind_of_ok (foldMembers_members hfolds)).trans ?_
  rw [hfinish]
  refine (bind_of_ok rfl).trans ?_
  exact (bind_of_ok endObject_close).trans rfl

theorem read_openBrace (S : Schema Streamed D α) (bytes : List UInt8) :
    S.read (room + 1) (openBrace :: bytes) = S.readMembers room bytes := rfl

theorem read_openBracket (S : Schema Streamed D α) (bytes : List UInt8) :
    S.read (room + 1) (openBracket :: bytes) = S.readElements room bytes := rfl

theorem readObject_openBrace (S : Schema Streamed D α) (bytes : List UInt8) :
    S.readObject (room + 1) (openBrace :: bytes) = S.readMembers room bytes := rfl

/-- A record is read from the object of its members, whatever follows. -/
theorem read_object (hfolds : Folds (S.readMember room) S.blank ms d)
    (hfinish : S.finish d = .ok a) :
    S.read (room + 1) (Utf8.encode (Json.object ms).text ++ rest) = .ok (a, rest) := by
  rw [encode_object, read_openBrace]
  exact readMembers_members hfolds hfinish

theorem takes_read (hfolds : Folds (S.readMember room) S.blank ms d)
    (hfinish : S.finish d = .ok a) : Takes (S.read (room + 1)) (Json.object ms).text a :=
  fun _ _ => read_object hfolds hfinish

theorem takes_readObject (hfolds : Folds (S.readMember room) S.blank ms d)
    (hfinish : S.finish d = .ok a) : Takes (S.readObject (room + 1)) (Json.object ms).text a := by
  intro rest _
  rw [encode_object, readObject_openBrace]
  exact readMembers_members hfolds hfinish

end Schema

end Overlay.Wire
