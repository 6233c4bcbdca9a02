import Overlay.Proofs.Wire.Printed

/-!
# Objects in any layout

`Layout` spreads the members of an object over bytes, with blanks wherever they may stand and the
keys in any spelling; the values are given as bytes, since those under unknown keys need not be the
text of any tree. The loop over the members is told once, for whatever it makes of a member
(`foldMembersIn_layout`): it makes of the members what `foldlM` makes of them. A record answers to a
member by its key alone: unknown keys change nothing, a repeated one is refused before its value is
looked at.
-/

namespace Overlay.Wire

open Reader

variable {α β D E : Type} {read : Reader α} {room rounds : Nat} {first : Bool} {k : String}
  {s : List Char} {u w v bs rest text : List UInt8} {a : α} {ms : List (String × List UInt8)}

/-! ## Readers and blanks -/

/-- A reader passes over blanks in front of what it reads. -/
def SkipsBlanks (read : Reader α) : Prop :=
  ∀ w bs, Blank w → read (w ++ bs) = read bs

theorem skipsBlanks_look {atEnd : Unfinished} {next : UInt8 → Reader α} :
    SkipsBlanks (look atEnd >>= next) := by
  intro w bs hw
  rw [bind_apply, bind_apply, look_blank hw]

theorem skipsBlanks_look? {next : Option UInt8 → Reader α} : SkipsBlanks (look? >>= next) := by
  intro w bs hw
  rw [bind_apply, bind_apply, look?_blank hw]

theorem SkipsBlanks.bind {next : α → Reader β} (h : SkipsBlanks read) :
    SkipsBlanks (read >>= next) := by
  intro w bs hw
  rw [bind_apply, bind_apply, h w bs hw]

theorem skipsBlanks_readString {expected : String} : SkipsBlanks (readString expected room) :=
  skipsBlanks_look

theorem skipsBlanks_readIdentity : SkipsBlanks (readIdentity room) :=
  skipsBlanks_readString.bind

theorem skipsBlanks_readUuid : SkipsBlanks (readUuid room) :=
  skipsBlanks_readString.bind

theorem skipsBlanks_readWord {limit : Nat} {expected : String} :
    SkipsBlanks (readWord limit expected room) :=
  skipsBlanks_look

/-- A reader takes bytes off the front and gives a value, whatever blanks stand in front of them and
whatever closes them. -/
def Accepts (read : Reader α) (v : List UInt8) (a : α) : Prop :=
  ∀ w rest, Blank w → Closes rest → read (w ++ (v ++ rest)) = .ok (a, rest)

theorem Takes.accepts (h : Takes read s a) (hread : SkipsBlanks read) :
    Accepts read (Utf8.encode s) a := fun w _ hw hrest =>
  (hread w _ hw).trans (h _ hrest)

theorem Accepts.streamed_map {read : Streamed α} (h : Accepts (read room) v a) (f : α → β) :
    Accepts ((f <$> read) room) v (f a) := fun w rest hw hrest =>
  bind_of_ok (h w rest hw hrest)

/-! ## Members -/

/-- The members of an object, spread over bytes between the braces. -/
inductive Layout : Bool → List (String × List UInt8) → List UInt8 → Prop
  | nil {first : Bool} {w : List UInt8} : Blank w → Layout first [] w
  | cons {first : Bool} {k : String} {v : List UInt8} {ms : List (String × List UInt8)}
      {t u key w x bs : List UInt8} : Blank t → Blank u → Spelling key k.toList → Blank w → Blank x →
      Layout false ms bs →
      Layout first ((k, v) :: ms)
        (t ++ ((if first then [] else comma :: u) ++ quote :: (key ++
          (w ++ colon :: (x ++ (v ++ bs))))))

/-- The text of one object with the given members, and blanks around it. -/
def IsObject (ms : List (String × List UInt8)) (text : List UInt8) : Prop :=
  ∃ before bs after, Blank before ∧ Layout true ms bs ∧ Blank after ∧
    text = before ++ openBrace :: (bs ++ closeBrace :: after)

/-- Members without blanks, each but the first behind a comma. -/
def compactMembers : Bool → List (String × List UInt8) → List UInt8
  | _, [] => []
  | first, (k, v) :: ms =>
    (if first then [] else [comma]) ++ (Utf8.encode (Json.stringText k) ++
      colon :: (v ++ compactMembers false ms))

def compactObject (ms : List (String × List UInt8)) : List UInt8 :=
  openBrace :: (compactMembers true ms ++ [closeBrace])

theorem layout_compactMembers (first : Bool) (ms : List (String × List UInt8)) :
    Layout first ms (compactMembers first ms) := by
  induction ms generalizing first with
  | nil => exact .nil blank_nil
  | cons m ms ih =>
    obtain ⟨k, v⟩ := m
    rw [compactMembers, encode_stringText]
    exact .cons blank_nil blank_nil (spelling_escapes k.toList) blank_nil blank_nil (ih false)

/-- All members can be written as one object. -/
theorem isObject_compactObject (ms : List (String × List UInt8)) : IsObject ms (compactObject ms) :=
  ⟨[], _, [], blank_nil, layout_compactMembers true ms, blank_nil, rfl⟩

/-- A member of a tree as a key and bytes. -/
def inBytes (m : String × Json) : String × List UInt8 :=
  (m.1, Utf8.encode m.2.text)

theorem encode_membersText (first : Bool) (ms : List (String × Json)) :
    Utf8.encode (membersText first ms) = compactMembers first (ms.map inBytes) := by
  induction ms generalizing first with
  | nil => rfl
  | cons m ms ih =>
    obtain ⟨k, j⟩ := m
    have hcolon : String.utf8EncodeChar ':' = [colon] := rfl
    cases first <;> simp [membersText, compactMembers, inBytes, ih, utf8EncodeChar_comma, hcolon]

/-- An object is printed as its compact text. -/
theorem encode_text_object (ms : List (String × Json)) :
    Utf8.encode (Json.object ms).text = compactObject (ms.map inBytes) := by
  have henc := @encode_object [] ms
  rwa [List.append_nil, encode_membersText] at henc

/-- Behind a member comes a blank, a comma or the brace. -/
theorem Layout.closes (h : Layout false ms bs) : Closes (bs ++ closeBrace :: rest) := by
  cases h with
  | nil hw => exact closes_blank hw closes_closeBrace
  | cons ht =>
    rw [List.append_assoc]
    exact closes_blank ht (.inl rfl)

theorem Layout.length_le (h : Layout first ms bs) : ms.length ≤ bs.length := by
  induction h with
  | nil => exact Nat.zero_le _
  | cons _ _ _ _ _ _ ih =>
    simp only [List.length_append, List.length_cons]
    omega

theorem skipsBlanks_nextKey : SkipsBlanks (nextKey first) :=
  skipsBlanks_look

theorem nextKey_layout {key : List UInt8} (hw : Blank w) (hu : Blank u)
    (hkey : Spelling key k.toList) :
    nextKey first (w ++ ((if first then [] else comma :: u) ++ quote :: (key ++ rest))) =
      .ok (some k, rest) := by
  have hbody : stringBody (key ++ rest) = .ok (k, rest) := stringBody_spelling hkey
  refine (skipsBlanks_nextKey w _ hw).trans ?_
  cases first with
  | true =>
    refine (bind_of_ok (look_cons (by decide))).trans ?_
    rw [if_neg (by decide), if_neg (by decide), if_neg (by decide), if_pos rfl]
    refine (bind_of_ok rfl).trans ?_
    exact (bind_of_ok hbody).trans rfl
  | false =>
    simp only [Bool.false_eq_true, if_false, List.cons_append]
    refine (bind_of_ok (look_cons (by decide))).trans ?_
    rw [if_neg (by decide), if_pos (by decide)]
    refine (bind_of_ok rfl).trans ?_
    refine (bind_of_ok ((look_blank hu).trans (look_cons (by decide)))).trans ?_
    rw [if_neg (by decide), if_pos rfl]
    refine (bind_of_ok rfl).trans ?_
    exact (bind_of_ok hbody).trans rfl

theorem colonMark_blank (hw : Blank w) : colonMark (w ++ colon :: rest) = .ok ((), rest) := by
  have hblank : SkipsBlanks colonMark := skipsBlanks_look
  exact (hblank w _ hw).trans ((bind_of_ok (look_cons (by decide))).trans rfl)

/-- What is read of an object between its braces is read of its text, blanks and all. -/
theorem whole_isObject {result : Except Fault α} (hread : SkipsBlanks read)
    (hmembers : ∀ bs after, Layout true ms bs →
      read (openBrace :: (bs ++ closeBrace :: after)) = result.map (·, after))
    (htext : IsObject ms text) : whole read text = result := by
  obtain ⟨before, bs, after, hbefore, hbs, hafter, rfl⟩ := htext
  have hspace : after.all isSpace = true := List.all_eq_true.2 hafter
  rw [whole, hread _ _ hbefore, hmembers bs after hbs]
  cases result with
  | error fault => rfl
  | ok a => simp [Except.map, hspace]

/-! ## The loop over the members -/

/-- What a reader makes of the value of a member, its key being gone. -/
def Answers (read : Reader α) (v : List UInt8) (result : Except Fault α) : Prop :=
  ∀ w x rest, Blank w → Blank x → Closes rest →
    read (w ++ colon :: (x ++ (v ++ rest))) = result.map (·, rest)

/-- The loop makes of the members what is made of them one by one. -/
theorem foldMembersIn_layout {step : D → String → Reader D} {take : D → E → Except Fault D}
    {entry : E → String × List UInt8} {es : List E}
    (hstep : ∀ e ∈ es, ∀ d, Answers (step d (entry e).1) (entry e).2 (take d e))
    (hbs : Layout first (es.map entry) bs) (hrounds : es.length < rounds) (d : D) :
    foldMembersIn step rounds first d (bs ++ closeBrace :: rest) =
      (es.foldlM take d).map (·, closeBrace :: rest) := by
  induction es generalizing first bs rounds d with
  | nil =>
    cases hbs with
    | nil hw =>
      obtain ⟨rounds, rfl⟩ := Nat.exists_eq_succ_of_ne_zero (Nat.ne_of_gt hrounds)
      refine (bind_of_ok ((skipsBlanks_nextKey _ _ hw).trans nextKey_close)).trans ?_
      rfl
  | cons e es ih =>
    obtain ⟨rounds, rfl⟩ := Nat.exists_eq_succ_of_ne_zero (Nat.ne_zero_of_lt hrounds)
    rw [List.map_cons] at hbs
    generalize hentry : entry e = m at hbs
    cases hbs with
    | @cons _ k v _ t u key w x bs ht hu hkey hw hx hbs =>
      have hanswer := hstep e List.mem_cons_self d w x (bs ++ closeBrace :: rest) hw hx hbs.closes
      rw [hentry] at hanswer
      simp only [List.append_assoc, List.cons_append]
      refine (bind_of_ok (nextKey_layout ht hu hkey)).trans ?_
      change (step d k >>= fun d' => foldMembersIn step rounds false d') _ = _
      rw [bind_apply, hanswer, List.foldlM_cons]
      cases htake : take d e with
      | error fault => rfl
      | ok d' =>
        exact ih (fun e he => hstep e (List.mem_cons_of_mem _ he)) hbs
          (Nat.lt_of_succ_lt_succ hrounds) d'

theorem foldMembers_layout {step : D → String → Reader D} {take : D → E → Except Fault D}
    {entry : E → String × List UInt8} {es : List E}
    (hstep : ∀ e ∈ es, ∀ d, Answers (step d (entry e).1) (entry e).2 (take d e))
    (hbs : Layout first (es.map entry) bs) (d : D) :
    foldMembers step first d (bs ++ closeBrace :: rest) =
      (es.foldlM take d).map (·, closeBrace :: rest) := by
  refine foldMembersIn_layout hstep hbs ?_ d
  have hlen := hbs.length_le
  rw [List.length_map] at hlen
  rw [List.length_append]
  omega

/-! ## Records -/

namespace Schema

variable {S : Schema Streamed D α} {d : D} {f : Field Streamed D} {set : D → D}

theorem answers_unknown (hf : S.field? k = none) (hv : WellFormed v) :
    Answers (S.readMember room d k) v (.ok d) := by
  intro w x rest hw hx hrest
  simp only [readMember, hf]
  refine (bind_of_ok (colonMark_blank hw)).trans ?_
  exact (bind_of_ok (skipValue_wellFormed hv hx hrest)).trans rfl

theorem answers_field (hf : S.field? k = some f) (hgiven : f.isGiven d = false)
    (hv : Accepts (f.value room) v set) : Answers (S.readMember room d k) v (.ok (set d)) := by
  intro w x rest hw hx hrest
  simp only [readMember, hf, hgiven, Bool.false_eq_true, if_false]
  refine (bind_of_ok (colonMark_blank hw)).trans ?_
  exact (bind_of_ok (hv x rest hx hrest)).trans rfl

/-- A repeated key is refused whatever its value. -/
theorem answers_given (hf : S.field? k = some f) (hgiven : f.isGiven d = true) :
    Answers (S.readMember room d k) v (.error (.misfit (.duplicateField f.name))) := by
  intro w x rest _ _ _
  simp only [readMember, hf, hgiven, if_true]
  rfl

variable {take : D → E → Except Fault D} {entry : E → String × List UInt8} {es : List E}

/-- A record is what is made of its members one by one, and finished. -/
theorem readMembers_layout
    (hstep : ∀ e ∈ es, ∀ d, Answers (S.readMember room d (entry e).1) (entry e).2 (take d e))
    (hbs : Layout true (es.map entry) bs) :
    S.readMembers room (bs ++ closeBrace :: rest) =
      (es.foldlM take S.blank >>= S.finish).map (·, rest) := by
  rw [readMembers, bind_apply, foldMembers_layout hstep hbs]
  cases es.foldlM take S.blank with
  | error fault => rfl
  | ok d =>
    have hbind : (Except.ok d >>= S.finish) = S.finish d := rfl
    rw [hbind]
    cases hfinish : S.finish d with
    | error fault =>
      have hlift : Reader.lift (S.finish d) (closeBrace :: rest) = .error fault := by
        rw [hfinish]
        rfl
      exact bind_of_error hlift
    | ok a =>
      have hlift : Reader.lift (S.finish d) (closeBrace :: rest) = .ok (a, closeBrace :: rest) := by
        rw [hfinish]
        rfl
      exact (bind_of_ok hlift).trans ((bind_of_ok endObject_close).trans rfl)

theorem whole_read_object
    (hstep : ∀ e ∈ es, ∀ d, Answers (S.readMember room d (entry e).1) (entry e).2 (take d e))
    (htext : IsObject (es.map entry) text) :
    whole (S.read (room + 1)) text = es.foldlM take S.blank >>= S.finish :=
  whole_isObject skipsBlanks_look (fun _ _ hbs => readMembers_layout hstep hbs) htext

end Schema

end Overlay.Wire
