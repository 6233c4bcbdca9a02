import Overlay.Proofs.Json
import Overlay.Proofs.Wire.Cut

/-!
# Trees that have been written

A tree of integers is read as what was written if as many arrays and objects may still be opened as
it nests (`reads_value`), and is refused for its depth otherwise, whatever follows it
(`refuses_value`). The first array or object that finds no room ends the reading, and all that stands
before it in the text has been taken by then.
-/

namespace Overlay.Wire

open Reader

variable {α β D : Type} {rest p q : List UInt8} {first : Bool} {room rounds n : Nat}

/-! ## Scalars -/

theorem value_eq_valueWith (room : Nat) : ∃ inner, value room = valueWith inner := by
  cases room <;> exact ⟨_, rfl⟩

/-- A scalar is a whole value. -/
theorem valueWith_scalar {inner : Option (Reader Json)} {b : UInt8} {bytes : List UInt8} {j : Json}
    (hb : isSpace b = false) (h : scalar? b (b :: bytes) = .ok (some j, rest)) :
    valueWith inner (b :: bytes) = .ok (j, rest) := by
  refine (bind_of_ok (look_cons hb)).trans ?_
  exact (bind_of_ok h).trans rfl

theorem starved_valueWith_scalar {inner : Option (Reader Json)} {b : UInt8} {bytes : List UInt8}
    (hb : isSpace b = false) (h : Starved (scalar? b (b :: bytes))) :
    Starved (valueWith inner (b :: bytes)) :=
  Starved.after (look_cons hb) h.bind

theorem starved_valueWith_nil {inner : Option (Reader Json)} : Starved (valueWith inner []) :=
  starved_look.bind

theorem reads_null {inner : Option (Reader Json)} :
    Reads (valueWith inner) Json.null.text .null :=
  ⟨fun _ _ => rfl, spells_null.starves.fades⟩

theorem reads_bool {inner : Option (Reader Json)} (b : Bool) :
    Reads (valueWith inner) (Json.bool b).text (.bool b) := by
  obtain ⟨c, cs, hspells, htext⟩ := spells_bool b
  refine ⟨fun rest _ => ?_, ?_⟩
  · cases b <;> rfl
  · rw [htext]
    exact hspells.starves.fades

theorem reads_string {inner : Option (Reader Json)} (s : String) :
    Reads (valueWith inner) (Json.string s).text (.string s) := by
  have htext : Utf8.encode (Json.string s).text =
      quote :: Utf8.encode (s.toList.flatMap Json.escaped ++ ['"']) := encode_stringText s
  refine ⟨fun rest _ => ?_, fun p hp => .inl ?_⟩
  · rw [htext, List.cons_append]
    refine valueWith_scalar (by decide) ?_
    refine (bind_of_ok rfl).trans ?_
    exact (bind_of_ok (stringBody_encode s)).trans rfl
  · rw [htext] at hp
    rcases cut_cons hp with rfl | ⟨q, rfl, hq⟩
    · exact starved_valueWith_nil
    · refine starved_valueWith_scalar (by decide) ?_
      exact Starved.after rfl (starves_stringBody s q hq).bind

/-! ## Integers -/

abbrev InRange (n : Int) : Prop :=
  -0x8000000000000000 ≤ n ∧ n < 0x10000000000000000

theorem integerOf_natAbs {n : Int} (h : InRange n) :
    integerOf (decide (n < 0)) n.natAbs = .ok (.whole n h) := by
  have hvalue : (if decide (n < 0) = true then -(n.natAbs : Int) else n.natAbs) = n := by
    split
    next hneg =>
      rw [decide_eq_true_iff] at hneg
      omega
    next hpos =>
      rw [decide_eq_true_iff] at hpos
      omega
  have hzero : ¬(decide (n < 0) = true ∧ n.natAbs = 0) := by
    rw [decide_eq_true_iff]
    omega
  simp only [integerOf, hvalue, hzero, not_false_eq_true, and_true]
  exact dif_pos h

theorem encode_wholeText (n : Int) :
    Utf8.encode (Json.wholeText n) =
      (if n < 0 then [ascii '-'] else []) ++ Utf8.encode (Radix.write 10 n.natAbs) := by
  unfold Json.wholeText
  split <;> rfl

theorem takes_valueWith_whole {inner : Option (Reader Json)} {n : Int} (h : InRange n) :
    Takes (valueWith inner) (Json.wholeText n) (.number (.whole n h)) := by
  intro rest hrest
  have hword : n.natAbs < wordLimit := by
    have := h.1
    have := h.2
    simp only [wordLimit]
    omega
  have hnumber : number (decide (n < 0)) (Utf8.encode (Radix.write 10 n.natAbs) ++ rest) =
      .ok (.whole n h, rest) := by
    rw [number_write hword hrest, integerOf_natAbs h]
    rfl
  rw [encode_wholeText]
  by_cases hneg : n < 0
  · rw [if_pos hneg, List.singleton_append, List.cons_append]
    rw [decide_eq_true hneg] at hnumber
    refine valueWith_scalar (by decide) ?_
    refine (bind_of_ok rfl).trans ?_
    exact (bind_of_ok hnumber).trans rfl
  · rw [if_neg hneg, List.nil_append]
    rw [decide_eq_false hneg] at hnumber
    obtain ⟨d, ds, hd, henc⟩ := encode_write n.natAbs
    have hspace : ∀ d < 10, isSpace (digitByte d) = false := by decide
    rw [henc, List.cons_append] at hnumber ⊢
    refine valueWith_scalar (hspace d hd) ?_
    rw [scalar?_digitByte hd]
    exact (bind_of_ok hnumber).trans rfl

/-- The front of an integer is a lone sign or another integer. -/
theorem cut_wholeText {n : Int} (hn : InRange n) (h : Cut p (Utf8.encode (Json.wholeText n))) :
    p = [] ∨ p = [ascii '-'] ∨ ∃ m, InRange m ∧ p = Utf8.encode (Json.wholeText m) := by
  obtain ⟨hlow, hhigh⟩ := hn
  rw [encode_wholeText] at h
  by_cases hneg : n < 0
  · rw [if_pos hneg, List.singleton_append] at h
    rcases cut_cons h with rfl | ⟨q, rfl, hq⟩
    · exact .inl rfl
    rcases cut_write hq with rfl | ⟨m, hm, hpos, rfl⟩
    · exact .inr (.inl rfl)
    · have hm0 : m ≠ 0 := hpos (by omega)
      refine .inr (.inr ⟨-m, ⟨by omega, by omega⟩, ?_⟩)
      rw [encode_wholeText, if_pos (by omega), Int.natAbs_neg, Int.natAbs_natCast]
      rfl
  · rw [if_neg hneg, List.nil_append] at h
    rcases cut_write h with rfl | ⟨m, hm, _, rfl⟩
    · exact .inl rfl
    · refine .inr (.inr ⟨m, ⟨by omega, by omega⟩, ?_⟩)
      rw [encode_wholeText, if_neg (by omega), Int.natAbs_natCast]
      rfl

theorem reads_whole {inner : Option (Reader Json)} {n : Int} (h : InRange n) :
    Reads (valueWith inner) (Json.number (.whole n h)).text (.number (.whole n h)) := by
  refine ⟨takes_valueWith_whole h, fun p hp => ?_⟩
  rcases cut_wholeText h hp with rfl | rfl | ⟨m, hm, rfl⟩
  · exact .inl starved_valueWith_nil
  · exact .inl ⟨.value, rfl⟩
  · have htakes := @takes_valueWith_whole inner m hm [] trivial
    rw [List.append_nil] at htakes
    exact .inr ⟨_, htakes⟩

/-! ## Arrays and objects -/

theorem opens_digitByte {d : Nat} (hd : d < 10) (bytes : List UInt8) :
    Opens (digitByte d :: bytes) := by
  have hall : ∀ d < 10, isSpace (digitByte d) = false ∧ digitByte d ≠ closeBracket := by decide
  exact hall d hd

/-- No text of a value begins with a blank or a closing bracket. -/
theorem opens_text {j : Json} (h : j.isWhole = true) (rest : List UInt8) :
    Opens (Utf8.encode j.text ++ rest) := by
  cases j with
  | null => exact ⟨by decide, by decide⟩
  | bool b => cases b <;> exact ⟨by decide, by decide⟩
  | number n =>
    cases n with
    | real x => simp [Json.isWhole, Number.isWhole] at h
    | whole n range =>
      have htext : Utf8.encode (Json.number (.whole n range)).text =
          (if n < 0 then [ascii '-'] else []) ++ Utf8.encode (Radix.write 10 n.natAbs) :=
        encode_wholeText n
      rw [htext]
      by_cases hneg : n < 0
      · rw [if_pos hneg]
        exact ⟨by decide, by decide⟩
      · obtain ⟨d, ds, hd, henc⟩ := encode_write n.natAbs
        rw [if_neg hneg, List.nil_append, henc, List.cons_append]
        exact opens_digitByte hd _
  | string s =>
    have htext : Utf8.encode (Json.string s).text =
        quote :: Utf8.encode (s.toList.flatMap Json.escaped ++ ['"']) := encode_stringText s
    rw [htext]
    exact ⟨by decide, by decide⟩
  | array items =>
    rw [encode_array]
    exact ⟨by decide, by decide⟩
  | object members => exact opens_object members

theorem reads_array {inner : Reader Json} {items : List Json}
    (h : ReadsAll inner items items) :
    Reads (valueWith (some inner)) (Json.array items).text (.array items) := by
  refine ⟨fun rest _ => ?_, fun p hp => .inl ?_⟩
  · rw [encode_array]
    refine (bind_of_ok (look_cons (by decide))).trans ?_
    refine (bind_of_ok rfl).trans ?_
    refine (bind_of_ok rfl).trans ?_
    exact (bind_of_ok (elements_items h.takesAll)).trans rfl
  · rcases cut_array hp with rfl | ⟨q, rfl, hq⟩
    · exact starved_valueWith_nil
    · have hitems : Starved (elements inner q) := (starved_elementsIn h hq).bind
      refine Starved.after (look_cons (by decide)) ?_
      refine Starved.after rfl ?_
      exact Starved.after rfl hitems.bind

theorem reads_object {inner : Reader Json} {members : List (String × Json)}
    (h : ReadsMembers (memberOf inner) [] members members) :
    Reads (valueWith (some inner)) (Json.object members).text (.object members) := by
  refine ⟨fun rest _ => ?_, fun p hp => .inl ?_⟩
  · rw [encode_object]
    refine (bind_of_ok (look_cons (by decide))).trans ?_
    refine (bind_of_ok rfl).trans ?_
    refine (bind_of_ok rfl).trans ?_
    refine (bind_of_ok (foldMembers_members h.folds)).trans ?_
    exact (bind_of_ok endObject_close).trans rfl
  · rcases cut_object hp with rfl | ⟨q, rfl, hq⟩
    · exact starved_valueWith_nil
    · have hmembers : Starved (foldMembers (memberOf inner) true [] q) := starved_foldMembersIn h hq
      refine Starved.after (look_cons (by decide)) ?_
      refine Starved.after rfl ?_
      exact Starved.after rfl hmembers.bind

theorem reads_memberOf {inner : Reader Json} {k : String} {j : Json} {ms : List (String × Json)}
    (h : Reads inner j.text j) : Reads (memberOf inner ms k) (':' :: j.text) (ms ++ [(k, j)]) := by
  refine ⟨fun rest hrest => ?_, ?_⟩
  · refine (bind_of_ok (colonMark_colon _)).trans ?_
    exact (bind_of_ok (h.takes rest hrest)).trans rfl
  · exact (h.fades.map fun j => ms ++ [(k, j)]).colon

mutual

/-- **A tree of integers is read as what was written if there is room for its depth.** -/
theorem reads_value : ∀ {j : Json} {room : Nat}, j.isWhole = true → j.depth ≤ room →
    Reads (value room) j.text j
  | .null, room, _, _ => by
    obtain ⟨inner, h⟩ := value_eq_valueWith room
    exact h ▸ reads_null
  | .bool b, room, _, _ => by
    obtain ⟨inner, h⟩ := value_eq_valueWith room
    exact h ▸ reads_bool b
  | .number (.whole n range), room, _, _ => by
    obtain ⟨inner, h⟩ := value_eq_valueWith room
    exact h ▸ reads_whole range
  | .string s, room, _, _ => by
    obtain ⟨inner, h⟩ := value_eq_valueWith room
    exact h ▸ reads_string s
  | .array _, _ + 1, hwhole, hdepth =>
    reads_array (readsAll_value hwhole (Nat.le_of_succ_le_succ hdepth))
  | .object _, _ + 1, hwhole, hdepth =>
    reads_object (readsMembers_value hwhole (Nat.le_of_succ_le_succ hdepth))

theorem readsAll_value : ∀ {js : List Json} {room : Nat}, Json.isWholeItems js = true →
    Json.depthItems js ≤ room → ReadsAll (value room) js js
  | [], _, _, _ => .nil
  | j :: js, room, hwhole, hdepth => by
    simp only [Json.isWholeItems, Bool.and_eq_true] at hwhole
    simp only [Json.depthItems, Nat.max_le] at hdepth
    exact .cons (reads_value hwhole.1 hdepth.1) (opens_text hwhole.1)
      (readsAll_value hwhole.2 hdepth.2)

theorem readsMembers_value : ∀ {ms acc : List (String × Json)} {room : Nat},
    Json.isWholeMembers ms = true → Json.depthMembers ms ≤ room →
      ReadsMembers (memberOf (value room)) acc ms (acc ++ ms)
  | [], acc, _, _, _ => by
    rw [List.append_nil]
    exact .nil acc
  | (k, j) :: ms, acc, room, hwhole, hdepth => by
    simp only [Json.isWholeMembers, Bool.and_eq_true] at hwhole
    simp only [Json.depthMembers, Nat.max_le] at hdepth
    have hms := @readsMembers_value ms (acc ++ [(k, j)]) room hwhole.2 hdepth.2
    rw [List.append_assoc] at hms
    exact .cons (reads_memberOf (reads_value hwhole.1 hdepth.1)) hms

end

/-! ## Texts that are refused -/

/-- A reader refuses a text, whatever closes it. -/
def Refuses (read : Reader α) (s : List Char) (fault : Fault) : Prop :=
  ∀ rest, Closes rest → read (Utf8.encode s ++ rest) = .error fault

variable {fault : Fault} {j : Json}

/-- The first item that is refused ends the array. -/
theorem elementsIn_refuses {item : Reader α} {js ks : List Json} {as : List α}
    (h : TakesAll item js as) (hj : Refuses item j.text fault)
    (hopens : ∀ rest, Opens (Utf8.encode j.text ++ rest)) (hrounds : js.length < rounds) :
    elementsIn item rounds first
      (Utf8.encode (itemsText first (js ++ j :: ks)) ++ closeBracket :: rest) = .error fault := by
  obtain ⟨more, rfl⟩ := Nat.exists_eq_add_of_lt hrounds
  have hitem : ∀ first, elementsIn item (more + 1) first
      (Utf8.encode (itemsText first (j :: ks)) ++ closeBracket :: rest) = .error fault := by
    intro first
    simp only [itemsText, Utf8.encode_append, List.append_assoc]
    refine (bind_of_ok (nextElement_item (hopens _))).trans ?_
    rw [if_pos rfl]
    exact bind_of_error (hj _ (closes_itemsText ks))
  rw [Nat.add_assoc, elementsIn_append h, hitem]
  rfl

/-- The first member that is refused ends the object. -/
theorem foldMembersIn_refuses {step : D → String → Reader D} {d d' : D} {k : String}
    {ms ns : List (String × Json)} (h : Folds step d ms d')
    (hj : Refuses (step d' k) (':' :: j.text) fault) (hrounds : ms.length < rounds) :
    foldMembersIn step rounds first d
      (Utf8.encode (membersText first (ms ++ (k, j) :: ns)) ++ closeBrace :: rest) =
        .error fault := by
  obtain ⟨more, rfl⟩ := Nat.exists_eq_add_of_lt hrounds
  rw [Nat.add_assoc, foldMembersIn_append h, encode_members]
  refine (bind_of_ok (nextKey_key k)).trans ?_
  exact bind_of_error (hj _ (closes_membersText ns))

theorem foldMembers_refuses {step : D → String → Reader D} {d d' : D} {k : String}
    {ms ns : List (String × Json)} (h : Folds step d ms d')
    (hj : Refuses (step d' k) (':' :: j.text) fault) :
    foldMembers step true d
      (Utf8.encode (membersText true (ms ++ (k, j) :: ns)) ++ closeBrace :: rest) =
        .error fault := by
  have htext := length_le_encode (membersText true (ms ++ (k, j) :: ns))
  have hlen := @length_le_membersText true (ms ++ (k, j) :: ns)
  refine foldMembersIn_refuses h hj ?_
  simp only [List.length_append, List.length_cons] at htext hlen ⊢
  omega

theorem length_itemsText_le (js ks : List Json) :
    (itemsText first js).length ≤ (itemsText first (js ++ ks)).length := by
  induction js generalizing first with
  | nil => exact Nat.zero_le _
  | cons j js ih =>
    have hjs := @ih false
    simp only [List.cons_append, itemsText, List.length_append]
    omega

theorem refuses_array {inner : Reader Json} {js ks as : List Json} (h : TakesAll inner js as)
    (hj : Refuses inner j.text fault) (hopens : ∀ rest, Opens (Utf8.encode j.text ++ rest)) :
    Refuses (valueWith (some inner)) (Json.array (js ++ j :: ks)).text fault := by
  intro rest _
  have htext := length_le_encode (itemsText true (js ++ j :: ks))
  have hlen := @TakesAll.length_le _ true _ _ _ h
  have happend := @length_itemsText_le true js (j :: ks)
  have hitems : elementsIn inner
      ((Utf8.encode (itemsText true (js ++ j :: ks)) ++ closeBracket :: rest).length + 1) true
      (Utf8.encode (itemsText true (js ++ j :: ks)) ++ closeBracket :: rest) = .error fault := by
    refine elementsIn_refuses h hj hopens ?_
    rw [List.length_append]
    omega
  rw [encode_array]
  refine (bind_of_ok (look_cons (by decide))).trans ?_
  refine (bind_of_ok rfl).trans ?_
  refine (bind_of_ok rfl).trans ?_
  exact bind_of_error (bind_of_error hitems)

theorem refuses_object {inner : Reader Json} {k : String} {ms ns acc : List (String × Json)}
    (h : Folds (memberOf inner) [] ms acc) (hj : Refuses inner j.text fault) :
    Refuses (valueWith (some inner)) (Json.object (ms ++ (k, j) :: ns)).text fault := by
  intro rest _
  have hmember : Refuses (memberOf inner acc k) (':' :: j.text) fault := by
    intro rest hrest
    refine (bind_of_ok (colonMark_colon _)).trans ?_
    exact bind_of_error (hj rest hrest)
  rw [encode_object]
  refine (bind_of_ok (look_cons (by decide))).trans ?_
  refine (bind_of_ok rfl).trans ?_
  refine (bind_of_ok rfl).trans ?_
  exact bind_of_error (foldMembers_refuses h hmember)

namespace Schema

variable {S : Schema Streamed D α} {d : D} {k : String} {ms ns : List (String × Json)}

/-- A field that is refused ends the record. -/
theorem refuses_readMember {f : Field Streamed D} (hf : S.field? k = some f)
    (hgiven : f.isGiven d = false) (h : Refuses (f.value room) j.text fault) :
    Refuses (S.readMember room d k) (':' :: j.text) fault := by
  intro rest hrest
  simp only [readMember, hf, hgiven, Bool.false_eq_true, if_false]
  refine (bind_of_ok (colonMark_colon _)).trans ?_
  exact bind_of_error (h rest hrest)

theorem refuses_read (h : Folds (S.readMember room) S.blank ms d)
    (hj : Refuses (S.readMember room d k) (':' :: j.text) fault) :
    Refuses (S.read (room + 1)) (Json.object (ms ++ (k, j) :: ns)).text fault := by
  intro rest _
  rw [encode_object, read_openBrace]
  exact bind_of_error (foldMembers_refuses h hj)

end Schema

/-! ## Trees that are too deep -/

theorem refuses_without_room {j : Json} (h : j.depth ≠ 0) :
    Refuses (value 0) j.text (.malformed .tooDeep) := by
  intro rest _
  cases j with
  | array items =>
    rw [encode_array]
    refine (bind_of_ok (look_cons (by decide))).trans ?_
    exact (bind_of_ok rfl).trans rfl
  | object members =>
    rw [encode_object]
    refine (bind_of_ok (look_cons (by decide))).trans ?_
    exact (bind_of_ok rfl).trans rfl
  | null | bool | number | string => exact absurd rfl h

mutual

/-- **A tree of integers that is deeper than the room is refused for its depth.** -/
theorem refuses_value : ∀ {j : Json} {room : Nat}, j.isWhole = true → room < j.depth →
    Refuses (value room) j.text (.malformed .tooDeep)
  | .null, _, _, hdepth | .bool _, _, _, hdepth | .number _, _, _, hdepth
  | .string _, _, _, hdepth => absurd hdepth (Nat.not_lt_zero _)
  | .array _, 0, _, _ => refuses_without_room (Nat.succ_ne_zero _)
  | .object _, 0, _, _ => refuses_without_room (Nat.succ_ne_zero _)
  | .array items, room + 1, hwhole, hdepth => by
    obtain ⟨js, j, ks, rfl, hjs, hj, hopens⟩ :=
      refuses_item hwhole (Nat.lt_of_succ_lt_succ hdepth)
    exact refuses_array hjs hj hopens
  | .object members, room + 1, hwhole, hdepth => by
    obtain ⟨ms, k, j, ns, rfl, hms, hj⟩ :=
      @refuses_member members [] room hwhole (Nat.lt_of_succ_lt_succ hdepth)
    exact refuses_object hms hj

/-- One item is too deep, and all before it are taken. -/
theorem refuses_item : ∀ {js : List Json} {room : Nat}, Json.isWholeItems js = true →
    room < Json.depthItems js →
      ∃ js₁ j js₂, js = js₁ ++ j :: js₂ ∧ TakesAll (value room) js₁ js₁ ∧
        Refuses (value room) j.text (.malformed .tooDeep) ∧
        ∀ rest, Opens (Utf8.encode j.text ++ rest)
  | [], _, _, hdepth => absurd hdepth (Nat.not_lt_zero _)
  | j :: js, room, hwhole, hdepth => by
    simp only [Json.isWholeItems, Bool.and_eq_true] at hwhole
    by_cases hj : room < j.depth
    · exact ⟨[], j, js, rfl, .nil, refuses_value hwhole.1 hj, opens_text hwhole.1⟩
    · rw [Json.depthItems] at hdepth
      obtain ⟨js₁, i, js₂, rfl, hjs, hi⟩ := @refuses_item js room hwhole.2 (by omega)
      exact ⟨j :: js₁, i, js₂, rfl, .cons (reads_value hwhole.1 (by omega)).takes
        (opens_text hwhole.1) hjs, hi⟩

/-- One member is too deep, and all before it are taken. -/
theorem refuses_member : ∀ {ms acc : List (String × Json)} {room : Nat},
    Json.isWholeMembers ms = true → room < Json.depthMembers ms →
      ∃ ms₁ k j ms₂, ms = ms₁ ++ (k, j) :: ms₂ ∧
        Folds (memberOf (value room)) acc ms₁ (acc ++ ms₁) ∧
        Refuses (value room) j.text (.malformed .tooDeep)
  | [], _, _, _, hdepth => absurd hdepth (Nat.not_lt_zero _)
  | (k, j) :: ms, acc, room, hwhole, hdepth => by
    simp only [Json.isWholeMembers, Bool.and_eq_true] at hwhole
    by_cases hj : room < j.depth
    · refine ⟨[], k, j, ms, rfl, ?_, refuses_value hwhole.1 hj⟩
      rw [List.append_nil]
      exact .nil acc
    · rw [Json.depthMembers] at hdepth
      obtain ⟨ms₁, l, i, ms₂, rfl, hms, hi⟩ :=
        @refuses_member ms (acc ++ [(k, j)]) room hwhole.2 (by omega)
      rw [List.append_assoc] at hms
      exact ⟨(k, j) :: ms₁, l, i, ms₂, rfl,
        .cons (reads_memberOf (reads_value hwhole.1 (by omega))).takes hms, hi⟩

end

end Overlay.Wire
