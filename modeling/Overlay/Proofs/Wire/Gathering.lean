import Mathlib.Data.List.Find
import Mathlib.Data.List.Nodup
import Overlay.Proofs.Wire.Layout
import Overlay.Proofs.Wire.Message

/-!
# Messages from members in any order

Which texts of one object are messages. The fields may come in any order and unknown keys may stand
anywhere with any value. What has been read so far shows in the draft as the set of the fields that
are given (`isGiven_foldl_set`), so the first member whose key has been there refuses the message as
a repetition, and only then the first field that is missing does (`Message.decode_members`).
-/

namespace Overlay

open Wire Wire.Reader

namespace Message

/-- The names of the fields in the order of their declaration. -/
def fieldNames : List String :=
  fields.map (·.name)

/-- The names of the fields that must be there, in the order of their declaration. -/
def requiredNames : List String :=
  (fields.filter (·.required)).map (·.name)

/-- A member of an object that is to be read as a message: a field with a value, or another key with
the bytes of its value. -/
inductive Member where
  | uuid (value : Uuid)
  | kind (value : MessageKind)
  | sender (value : Identity)
  | recipient (value : Identity)
  | sequence (value : UInt64)
  | reliable (value : Bool)
  | payload (value : Payload)
  /-- A signature, or null. -/
  | signature (value : Option Signature)
  | unknown (key : String) (value : List UInt8)

def signatureJson : Option Signature → Json
  | none => .null
  | some s => s.toJson

namespace Member

def name : Member → String
  | uuid _ => "uuid"
  | kind _ => "type"
  | sender _ => "from"
  | recipient _ => "to"
  | sequence _ => "seq"
  | reliable _ => "reliable"
  | payload _ => "data"
  | signature _ => "signature"
  | unknown key _ => key

/-- The bytes of the value of a member: for a field those that the value is written as. -/
def text : Member → List UInt8
  | uuid u => Utf8.encode (Json.string (String.ofList u.hyphenated)).text
  | kind k => Utf8.encode (Json.string k.tag).text
  | sender i | recipient i => Utf8.encode i.toJson.text
  | sequence n => Utf8.encode (Json.number (.ofUInt64 n)).text
  | reliable b => Utf8.encode (Json.bool b).text
  | payload p => Utf8.encode p.toJson.text
  | signature s => Utf8.encode (signatureJson s).text
  | unknown _ value => value

def entry (m : Member) : String × List UInt8 :=
  (m.name, m.text)

/-- The data of an application hold no binary number and fit, and an unknown key is one, with a
well-formed text behind it. -/
def Valid : Member → Prop
  | payload p => p.isWhole = true ∧ p.bodyDepth ≤ 125
  | unknown key value => key ∉ fieldNames ∧ WellFormed value
  | _ => True

/-- What a member adds to what is known of a message. -/
def set : Member → Draft → Draft
  | uuid v, d => { d with uuid := some v }
  | kind v, d => { d with kind := some v }
  | sender v, d => { d with sender := some v }
  | recipient v, d => { d with recipient := some v }
  | sequence v, d => { d with sequence := some v }
  | reliable v, d => { d with reliable := some v }
  | payload v, d => { d with payload := some v }
  | signature v, d => { d with signature := some v }
  | unknown _ _, d => d

/-- What is made of a member: a field that is given already is refused. -/
def add (d : Draft) (m : Member) : Except Fault Draft :=
  match schema.field? m.name with
  | none => .ok d
  | some f => if f.isGiven d then .error (.misfit (.duplicateField f.name)) else .ok (m.set d)

end Member

def known (ms : List Member) : List Member :=
  ms.filter fun m => m.name ∈ fieldNames

def knownNames (ms : List Member) : List String :=
  (known ms).map Member.name

/-- Each field of the message is that of a member; data and signature may be left out. -/
structure MadeOf (m : Message) (ms : List Member) : Prop where
  uuid : .uuid m.uuid ∈ ms
  kind : .kind m.kind ∈ ms
  sender : .sender m.sender ∈ ms
  recipient : .recipient m.recipient ∈ ms
  sequence : .sequence m.sequence ∈ ms
  reliable : .reliable m.reliable ∈ ms
  payload : .payload m.payload ∈ ms ∨ "data" ∉ knownNames ms ∧ m.payload = .null
  signature : .signature m.signature ∈ ms ∨ "signature" ∉ knownNames ms ∧ m.signature = none

variable {ms ns : List Member} {m : Member} {d : Draft} {f : Field Streamed Draft}
  {text : List UInt8} {n : String}

/-! ## Fields by their names -/

theorem field?_eq_none_iff : schema.field? n = none ↔ n ∉ fieldNames := by
  simp [Schema.field?, schema, fieldNames]

theorem mem_of_field? (h : schema.field? n = some f) : f ∈ fields ∧ f.name = n :=
  ⟨List.mem_of_find?_eq_some h, by simpa using List.find?_some h⟩

/-- The value of a field is read from what it is written as. -/
theorem accepts_value (hm : m.Valid) (hf : schema.field? m.name = some f) :
    Accepts (f.value 126) m.text m.set := by
  cases m with
  | uuid u =>
    cases hf
    exact ((takes_readUuid u).accepts skipsBlanks_readUuid).streamed_map _
  | kind k =>
    cases hf
    exact ((takes_readTag (named_tag k)).accepts skipsBlanks_look).streamed_map _
  | sender i | recipient i =>
    cases hf
    exact ((takes_readIdentity i).accepts skipsBlanks_readIdentity).streamed_map _
  | sequence n =>
    cases hf
    exact ((reads_readUInt64 n).takes.accepts skipsBlanks_readWord.bind).streamed_map _
  | reliable b =>
    cases hf
    exact ((takes_readBool b).accepts skipsBlanks_look).streamed_map _
  | payload p =>
    cases hf
    exact ((Payload.reads_read hm.1 hm.2).takes.accepts skipsBlanks_look).streamed_map _
  | signature s =>
    cases hf
    have hread : Takes (Signature.read? 126) (signatureJson s).text s := by
      cases s with
      | none => exact fun _ _ => rfl
      | some s => exact s.reads_read?.takes
    exact (hread.accepts skipsBlanks_look?).streamed_map _
  | unknown key value =>
    rw [Member.name, field?_eq_none_iff.2 hm.1] at hf
    cases hf

/-- What the reader makes of a member. -/
theorem answers_add (hm : m.Valid) (d : Draft) :
    Answers (schema.readMember 126 d m.entry.1) m.entry.2 (m.add d) := by
  unfold Member.add
  split
  next hf =>
    have hvalue : WellFormed m.text := by
      cases m with
      | unknown => exact hm.2
      | uuid | kind | sender | recipient | sequence | reliable | payload | signature => cases hf
    exact Schema.answers_unknown hf hvalue
  next f hf =>
    split
    next hgiven => exact Schema.answers_given hf hgiven
    next hgiven =>
      exact Schema.answers_field hf (Bool.eq_false_iff.2 hgiven) (accepts_value hm hf)

/-- A message is what is made of its members one by one. -/
theorem decode_eq_foldlM (hms : ∀ m ∈ ms, m.Valid) (htext : IsObject (ms.map Member.entry) text) :
    decode text = ms.foldlM Member.add schema.blank >>= schema.finish :=
  Schema.whole_read_object (fun m hm d => answers_add (hms m hm) d) htext

/-! ## Fields among the members -/

theorem known_cons_of_mem (hm : m.name ∈ fieldNames) : known (m :: ms) = m :: known ms := by
  simp [known, hm]

theorem known_cons_of_not_mem (hm : m.name ∉ fieldNames) : known (m :: ms) = known ms := by
  simp [known, hm]

theorem knownNames_append : knownNames (ms ++ ns) = knownNames ms ++ knownNames ns := by
  simp [knownNames, known]

theorem mem_knownNames_cons (hf : f ∈ fields) :
    f.name ∈ knownNames (m :: ms) ↔ m.name = f.name ∨ f.name ∈ knownNames ms := by
  have hname : f.name ∈ fieldNames := List.mem_map_of_mem hf
  by_cases hm : m.name ∈ fieldNames
  · rw [knownNames, known_cons_of_mem hm, List.map_cons, List.mem_cons, eq_comm, knownNames]
  · have hne : m.name ≠ f.name := fun h => hm (h ▸ hname)
    rw [knownNames, known_cons_of_not_mem hm, knownNames]
    simp [hne]

theorem mem_fieldNames_of_mem (h : n ∈ knownNames ms) : n ∈ fieldNames := by
  obtain ⟨m, hm, rfl⟩ := List.mem_map.1 h
  simpa using (List.mem_filter.1 hm).2

theorem nodup_knownNames_cons :
    (knownNames (m :: ms)).Nodup ↔ m.name ∉ knownNames ms ∧ (knownNames ms).Nodup := by
  by_cases hm : m.name ∈ fieldNames
  · rw [knownNames, known_cons_of_mem hm, List.map_cons, List.nodup_cons, knownNames]
  · rw [knownNames, known_cons_of_not_mem hm, ← knownNames]
    exact ⟨fun h => ⟨mt mem_fieldNames_of_mem hm, h⟩, And.right⟩

/-- If a field occurs twice, there is a first member that repeats an earlier one. -/
theorem exists_first_repetition (hms : (knownNames ms).Nodup) (h : ¬(knownNames (ms ++ ns)).Nodup) :
    ∃ ns₁ m ns₂, ns = ns₁ ++ m :: ns₂ ∧ m.name ∈ knownNames (ms ++ ns₁) ∧
      (knownNames (ms ++ ns₁)).Nodup := by
  induction ns generalizing ms with
  | nil =>
    rw [List.append_nil] at h
    exact absurd hms h
  | cons m ns ih =>
    by_cases hm : m.name ∈ knownNames ms
    · exact ⟨[], m, ns, rfl, by rwa [List.append_nil], by rwa [List.append_nil]⟩
    · have hnodup : (knownNames (ms ++ [m])).Nodup := by
        rw [knownNames_append, List.perm_append_comm.nodup_iff, ← knownNames_append]
        exact nodup_knownNames_cons.2 ⟨hm, hms⟩
      obtain ⟨ns₁, m', ns₂, rfl, hmem, hnodup'⟩ := ih hnodup (by simpa using h)
      exact ⟨m :: ns₁, m', ns₂, rfl, by simpa using hmem, by simpa using hnodup'⟩

/-! ## What is known so far -/

/-- What the members add to what is known of a message, if none of them is refused. -/
def collect (d : Draft) (ms : List Member) : Draft :=
  ms.foldl (fun d m => m.set d) d

/-- A member gives the field of its name. -/
theorem isGiven_set (hf : f ∈ fields) (hm : m.Valid) :
    f.isGiven (m.set d) = true ↔ f.isGiven d = true ∨ m.name = f.name := by
  cases m with
  | unknown key value =>
    have hne : key ≠ f.name := by
      rintro rfl
      exact hm.1 (List.mem_map_of_mem hf)
    simp [Member.set, Member.name, hne]
  | uuid | kind | sender | recipient | sequence | reliable | payload | signature =>
    simp only [fields, List.mem_cons, List.not_mem_nil, or_false] at hf
    rcases hf with rfl | rfl | rfl | rfl | rfl | rfl | rfl | rfl <;> simp [Member.set, Member.name]

/-- **The fields that are given are those whose members have been read.** -/
theorem isGiven_collect (hf : f ∈ fields) (hms : ∀ m ∈ ms, m.Valid) :
    f.isGiven (collect d ms) = true ↔ f.isGiven d = true ∨ f.name ∈ knownNames ms := by
  induction ms generalizing d with
  | nil => simp [collect, knownNames, known]
  | cons m ms ih =>
    obtain ⟨hm, hms⟩ := List.forall_mem_cons.1 hms
    rw [mem_knownNames_cons hf, ← or_assoc, ← isGiven_set hf hm]
    exact ih hms

theorem isGiven_blank (hf : f ∈ fields) : f.isGiven schema.blank = false := by
  simp only [fields, List.mem_cons, List.not_mem_nil, or_false] at hf
  rcases hf with rfl | rfl | rfl | rfl | rfl | rfl | rfl | rfl <;> rfl

/-- A member whose field has not been given is taken, and so is one that is no field. -/
theorem add_eq_ok (h : ∀ f ∈ fields, f.name = m.name → f.isGiven d = false) (hm : m.Valid) :
    m.add d = .ok (m.set d) := by
  unfold Member.add
  split
  next hf =>
    cases m with
    | unknown => rfl
    | uuid | kind | sender | recipient | sequence | reliable | payload | signature => cases hf
  next f hf =>
    obtain ⟨hmem, hname⟩ := mem_of_field? hf
    rw [h f hmem hname]
    rfl

theorem add_eq_error (hname : m.name ∈ fieldNames)
    (h : ∀ f ∈ fields, f.name = m.name → f.isGiven d = true) :
    m.add d = .error (.misfit (.duplicateField m.name)) := by
  unfold Member.add
  split
  next hf => exact absurd hname (field?_eq_none_iff.1 hf)
  next f hf =>
    obtain ⟨hmem, hname⟩ := mem_of_field? hf
    rw [h f hmem hname, hname]
    rfl

/-- Members without repetition are all taken. -/
theorem foldlM_add_of_nodup (hms : ∀ m ∈ ms, m.Valid) (hnodup : (knownNames ms).Nodup)
    (hd : ∀ f ∈ fields, f.name ∈ knownNames ms → f.isGiven d = false) :
    ms.foldlM Member.add d = .ok (collect d ms) := by
  induction ms generalizing d with
  | nil => rfl
  | cons m ms ih =>
    obtain ⟨hm, hms⟩ := List.forall_mem_cons.1 hms
    have hadd : m.add d = .ok (m.set d) :=
      add_eq_ok (fun f hf hname => hd f hf ((mem_knownNames_cons hf).2 (.inl hname.symm))) hm
    obtain ⟨hfresh, hnodup⟩ := nodup_knownNames_cons.1 hnodup
    rw [List.foldlM_cons, hadd]
    refine ih hms hnodup fun f hf hmem => ?_
    have hgiven := hd f hf ((mem_knownNames_cons hf).2 (.inr hmem))
    have hne : m.name ≠ f.name := fun h => hfresh (h ▸ hmem)
    rw [← Bool.not_eq_true, isGiven_set hf hm, hgiven]
    simpa using hne

theorem decode_of_nodup (hms : ∀ m ∈ ms, m.Valid) (htext : IsObject (ms.map Member.entry) text)
    (hnodup : (knownNames ms).Nodup) :
    decode text = schema.finish (collect schema.blank ms) := by
  rw [decode_eq_foldlM hms htext,
    foldlM_add_of_nodup hms hnodup fun f hf _ => isGiven_blank hf]
  rfl

/-- A message is refused at the first member that repeats an earlier one. -/
theorem foldlM_add_of_repetition (hms : ∀ m ∈ ms, m.Valid) (hnodup : (knownNames ms).Nodup)
    (hm : m.name ∈ knownNames ms) :
    (ms ++ m :: ns).foldlM Member.add schema.blank =
      .error (.misfit (.duplicateField m.name)) := by
  have hgiven : ∀ f ∈ fields, f.name = m.name → f.isGiven (collect schema.blank ms) = true :=
    fun f hf hname => (isGiven_collect hf hms).2 (.inr (hname ▸ hm))
  rw [List.foldlM_append, foldlM_add_of_nodup hms hnodup fun f hf _ => isGiven_blank hf]
  have hadd := add_eq_error (mem_fieldNames_of_mem hm) hgiven
  change List.foldlM Member.add (collect schema.blank ms) (m :: ns) = _
  rw [List.foldlM_cons, hadd]
  rfl

/-! ## Finished messages -/

/-- The first field that is missing refuses the message. -/
theorem finish_of_missing
    (h : (fields.filter (·.required)).find? (fun f => !f.isGiven d) = some f) :
    schema.finish d = .error (.misfit (.missingField f.name)) := by
  obtain ⟨uuid, kind, sender, recipient, sequence, reliable, payload, signature⟩ := d
  -- The fields are asked for one after the other, so the cases follow their order.
  rcases uuid with _ | uuid
  · cases h
    rfl
  rcases kind with _ | kind
  · cases h
    rfl
  rcases sender with _ | sender
  · cases h
    rfl
  rcases recipient with _ | recipient
  · cases h
    rfl
  rcases sequence with _ | sequence
  · cases h
    rfl
  rcases reliable with _ | reliable
  · cases h
    rfl
  · cases h

/-- Without repetitions, the first field that is missing among the members refuses the message. -/
theorem finish_collect_of_missing (hms : ∀ m ∈ ms, m.Valid)
    (hn : requiredNames.find? (fun n => n ∉ knownNames ms) = some n) :
    schema.finish (collect schema.blank ms) = .error (.misfit (.missingField n)) := by
  rw [requiredNames, List.find?_map, Option.map_eq_some_iff] at hn
  obtain ⟨f, hf, rfl⟩ := hn
  refine finish_of_missing ?_
  rw [← hf]
  refine List.find?_congr fun f hf => ?_
  have hmem := List.mem_of_mem_filter hf
  have hgiven := isGiven_collect (d := schema.blank) hmem hms
  rw [isGiven_blank hmem] at hgiven
  simp only [Bool.false_eq_true, false_or] at hgiven
  rw [Bool.eq_iff_iff]
  simp [← hgiven]

/-- What a finished message is made of. -/
theorem finish_of_given (h : ∀ f ∈ fields, f.required = true → f.isGiven d = true) :
    ∃ m, schema.finish d = .ok m ∧ d.uuid = some m.uuid ∧ d.kind = some m.kind ∧
      d.sender = some m.sender ∧ d.recipient = some m.recipient ∧ d.sequence = some m.sequence ∧
      d.reliable = some m.reliable ∧ m.payload = d.payload.getD .null ∧
      m.signature = d.signature.getD none := by
  simp only [fields, List.forall_mem_cons, forall_const] at h
  obtain ⟨huuid, hkind, hsender, hrecipient, hsequence, hreliable, _⟩ := h
  obtain ⟨uuid, huuid⟩ := Option.isSome_iff_exists.1 huuid
  obtain ⟨kind, hkind⟩ := Option.isSome_iff_exists.1 hkind
  obtain ⟨sender, hsender⟩ := Option.isSome_iff_exists.1 hsender
  obtain ⟨recipient, hrecipient⟩ := Option.isSome_iff_exists.1 hrecipient
  obtain ⟨sequence, hsequence⟩ := Option.isSome_iff_exists.1 hsequence
  obtain ⟨reliable, hreliable⟩ := Option.isSome_iff_exists.1 hreliable
  refine ⟨⟨uuid, kind, sender, recipient, sequence, reliable, d.payload.getD .null,
    d.signature.getD none⟩, ?_, huuid, hkind, hsender, hrecipient, hsequence, hreliable, rfl, rfl⟩
  simp only [schema, huuid, hkind, hsender, hrecipient, hsequence, hreliable]
  rfl

/-- A part of the draft is set by the members of one kind, to their values. -/
def SetBy {β : Type} (part : Draft → Option β) (make : β → Member) : Prop :=
  part schema.blank = none ∧
    ∀ (m : Member) d, part (m.set d) = part d ∨ ∃ b, part (m.set d) = some b ∧ m = make b

section

variable {β : Type} {part : Draft → Option β} {make : β → Member} {b : β}

theorem SetBy.mem_or (h : SetBy part make) (hb : part (collect d ms) = some b) :
    make b ∈ ms ∨ part d = some b := by
  induction ms generalizing d with
  | nil => exact .inr hb
  | cons m ms ih =>
    rcases ih hb with hmem | hpart
    · exact .inl (List.mem_cons_of_mem _ hmem)
    · rcases h.2 m d with hsame | ⟨c, hc, rfl⟩
      · exact .inr (hsame.symm.trans hpart)
      · rw [hc] at hpart
        rw [Option.some.inj hpart]
        exact .inl List.mem_cons_self

/-- What a part of the draft holds comes from a member. -/
theorem SetBy.mem (h : SetBy part make) (hb : part (collect schema.blank ms) = some b) :
    make b ∈ ms := by
  rcases h.mem_or hb with hmem | hblank
  · exact hmem
  · rw [h.1] at hblank
    cases hblank

/-- A field that may be left out holds the value of a member, or what stands for none. -/
theorem SetBy.mem_or_absent (h : SetBy part make) (hf : f ∈ fields) (hms : ∀ m ∈ ms, m.Valid)
    (hpart : ∀ d, f.isGiven d = (part d).isSome) (z : β) :
    make ((part (collect schema.blank ms)).getD z) ∈ ms ∨
      f.name ∉ knownNames ms ∧ (part (collect schema.blank ms)).getD z = z := by
  cases hb : part (collect schema.blank ms) with
  | some b => exact .inl (h.mem hb)
  | none =>
    refine .inr ⟨fun hname => ?_, rfl⟩
    have hgiven := (isGiven_collect (d := schema.blank) hf hms).2 (.inr hname)
    rw [hpart, hb] at hgiven
    cases hgiven

end

/-- A message without repetitions whose required fields are there is made of them. -/
theorem finish_collect (hms : ∀ m ∈ ms, m.Valid)
    (hrequired : ∀ n ∈ requiredNames, n ∈ knownNames ms) :
    ∃ m, schema.finish (collect schema.blank ms) = .ok m ∧ m.MadeOf ms := by
  have hgiven : ∀ f ∈ fields, f.required = true →
      f.isGiven (collect schema.blank ms) = true := fun f hf hreq =>
    (isGiven_collect hf hms).2
      (.inr (hrequired _ (List.mem_map_of_mem (List.mem_filter.2 ⟨hf, hreq⟩))))
  obtain ⟨m, hfinish, huuid, hkind, hsender, hrecipient, hsequence, hreliable, hpayload,
    hsignature⟩ := finish_of_given hgiven
  have setUuid : SetBy (·.uuid) .uuid := ⟨rfl, fun m d => by cases m <;> simp [Member.set]⟩
  have setKind : SetBy (·.kind) .kind := ⟨rfl, fun m d => by cases m <;> simp [Member.set]⟩
  have setSender : SetBy (·.sender) .sender := ⟨rfl, fun m d => by cases m <;> simp [Member.set]⟩
  have setRecipient : SetBy (·.recipient) .recipient :=
    ⟨rfl, fun m d => by cases m <;> simp [Member.set]⟩
  have setSequence : SetBy (·.sequence) .sequence :=
    ⟨rfl, fun m d => by cases m <;> simp [Member.set]⟩
  have setReliable : SetBy (·.reliable) .reliable :=
    ⟨rfl, fun m d => by cases m <;> simp [Member.set]⟩
  have setPayload : SetBy (·.payload) .payload :=
    ⟨rfl, fun m d => by cases m <;> simp [Member.set]⟩
  have setSignature : SetBy (·.signature) .signature :=
    ⟨rfl, fun m d => by cases m <;> simp [Member.set]⟩
  refine ⟨m, hfinish, setUuid.mem huuid, setKind.mem hkind, setSender.mem hsender,
    setRecipient.mem hrecipient, setSequence.mem hsequence, setReliable.mem hreliable, ?_, ?_⟩
  · rw [hpayload]
    exact setPayload.mem_or_absent (f := fields[6]) (List.getElem_mem _) hms (fun _ => rfl) .null
  · rw [hsignature]
    exact setSignature.mem_or_absent (f := fields[7]) (List.getElem_mem _) hms (fun _ => rfl) none

/-! ## The order of the members -/

theorem foldlM_known : (known ms).foldlM Member.add d = ms.foldlM Member.add d := by
  induction ms generalizing d with
  | nil => rfl
  | cons m ms ih =>
    by_cases hm : m.name ∈ fieldNames
    · rw [known_cons_of_mem hm, List.foldlM_cons, List.foldlM_cons]
      cases m.add d with
      | error fault => rfl
      | ok d' => exact ih
    · have hadd : m.add d = .ok d := by
        simp only [Member.add, field?_eq_none_iff.2 hm]
      rw [known_cons_of_not_mem hm, List.foldlM_cons, hadd]
      exact ih

theorem collect_known : collect d (known ms) = collect d ms := by
  induction ms generalizing d with
  | nil => rfl
  | cons m ms ih =>
    by_cases hm : m.name ∈ fieldNames
    · rw [known_cons_of_mem hm]
      exact ih
    · have hset : m.set d = d := by
        cases m with
        | unknown => rfl
        | uuid | kind | sender | recipient | sequence | reliable | payload | signature =>
          exact absurd (by simp [Member.name, fieldNames, fields]) hm
      rw [known_cons_of_not_mem hm, ih, collect, collect, List.foldl_cons, hset]

/-- Members under different keys set different parts. -/
theorem set_comm {m' : Member} (h : m.name ≠ m'.name) (d : Draft) :
    m'.set (m.set d) = m.set (m'.set d) := by
  cases m <;> cases m' <;> first | rfl | exact absurd rfl h

theorem collect_perm (hnodup : (ms.map Member.name).Nodup) (h : ms.Perm ns) :
    collect d ms = collect d ns := by
  refine h.foldl_eq' (fun m hm m' hm' d => ?_) d
  by_cases hname : m.name = m'.name
  · rw [List.inj_on_of_nodup_map hnodup hm hm' hname]
  · exact set_comm hname d

/-- **What the text of one object is read as, whatever the order of its members.** Of fields that
repeat, the first member that repeats an earlier one refuses the text; otherwise the first field
that is missing does; otherwise the message is that of the members. Keys that are no fields do not
matter, and without repetitions the order does not either. -/
theorem decode_members (hms : ∀ m ∈ ms, m.Valid) (htext : IsObject (ms.map Member.entry) text) :
    (¬(knownNames ms).Nodup → ∃ ms₁ m ms₂, ms = ms₁ ++ m :: ms₂ ∧ m.name ∈ knownNames ms₁ ∧
      (knownNames ms₁).Nodup ∧ decode text = .error (.misfit (.duplicateField m.name))) ∧
    ((knownNames ms).Nodup →
      (∀ n, requiredNames.find? (· ∉ knownNames ms) = some n →
        decode text = .error (.misfit (.missingField n))) ∧
      ((∀ n ∈ requiredNames, n ∈ knownNames ms) → ∃ m, decode text = .ok m ∧ m.MadeOf ms)) ∧
    ∀ ns text', (∀ m ∈ ns, m.Valid) → IsObject (ns.map Member.entry) text' →
      (known ns = known ms → decode text' = decode text) ∧
      ((knownNames ms).Nodup → (known ns).Perm (known ms) → decode text' = decode text) := by
  have hdecode := decode_eq_foldlM hms htext
  refine ⟨fun hrepeat => ?_, fun hnodup => ⟨fun n hn => ?_, fun hrequired => ?_⟩,
    fun ns text' hns htext' => ⟨fun hknown => ?_, fun hnodup hperm => ?_⟩⟩
  · obtain ⟨ms₁, m, ms₂, rfl, hmem, hnodup⟩ := @exists_first_repetition [] _ .nil hrepeat
    have hms₁ : ∀ m ∈ ms₁, m.Valid := fun m hm => hms m (List.mem_append_left _ hm)
    refine ⟨ms₁, m, ms₂, rfl, hmem, hnodup, ?_⟩
    rw [hdecode, foldlM_add_of_repetition hms₁ hnodup hmem]
    rfl
  · rw [decode_of_nodup hms htext hnodup]
    exact finish_collect_of_missing hms hn
  · obtain ⟨m, hfinish, hmade⟩ := finish_collect hms hrequired
    exact ⟨m, (decode_of_nodup hms htext hnodup).trans hfinish, hmade⟩
  · rw [hdecode, decode_eq_foldlM hns htext', ← foldlM_known, hknown, foldlM_known]
  · have hnodup' : (knownNames ns).Nodup := (hperm.map Member.name).nodup_iff.2 hnodup
    rw [decode_of_nodup hms htext hnodup, decode_of_nodup hns htext' hnodup', ← collect_known,
      collect_perm hnodup' hperm, collect_known]

/-- A complete message without its data, and between its members two keys that are no fields. -/
def shuffled : List Member :=
  [.reliable true, .unknown "hops" (Utf8.encode (Json.array [.null, .object []]).text), .sequence 7,
    .recipient default, .signature none, .uuid default, .kind .ping,
    .unknown "" (Utf8.encode (Json.string "uuid").text), .sender default]

theorem valid_shuffled : ∀ m ∈ shuffled, m.Valid := by
  have hops : Member.Valid (.unknown "hops" (Utf8.encode (Json.array [.null, .object []]).text)) :=
    ⟨by decide, wellFormed_text _⟩
  have empty : Member.Valid (.unknown "" (Utf8.encode (Json.string "uuid").text)) :=
    ⟨by decide, wellFormed_text _⟩
  simp only [shuffled, List.forall_mem_cons]
  exact ⟨trivial, hops, trivial, trivial, trivial, trivial, trivial, empty, trivial, by simp⟩

theorem decode_members_shuffled :
    (∃ m, decode (compactObject (shuffled.map Member.entry)) = .ok m ∧ m.MadeOf shuffled) ∧
    (∃ ms₁ m ms₂, shuffled ++ shuffled = ms₁ ++ m :: ms₂ ∧ m.name ∈ knownNames ms₁ ∧
      (knownNames ms₁).Nodup ∧ decode (compactObject ((shuffled ++ shuffled).map Member.entry)) =
        .error (.misfit (.duplicateField m.name))) ∧
    decode (compactObject ((shuffled.take 4).map Member.entry)) =
      .error (.misfit (.missingField "uuid")) ∧
    decode (compactObject (shuffled.reverse.map Member.entry)) =
      decode (compactObject (shuffled.map Member.entry)) := by
  have htext : ∀ ms : List Member,
      IsObject (ms.map Member.entry) (compactObject (ms.map Member.entry)) :=
    fun ms => isObject_compactObject _
  have hall := valid_shuffled
  have htwice : ∀ m ∈ shuffled ++ shuffled, m.Valid := fun m hm =>
    hall m (by simpa using hm)
  have hsome : ∀ m ∈ shuffled.take 4, m.Valid := fun m hm => hall m (List.mem_of_mem_take hm)
  have hback : ∀ m ∈ shuffled.reverse, m.Valid := fun m hm => hall m (List.mem_reverse.1 hm)
  have hnodup : (knownNames shuffled).Nodup := by decide
  refine ⟨?_, ?_, ?_, ?_⟩
  · exact ((decode_members hall (htext _)).2.1 hnodup).2 (by decide)
  · exact (decode_members htwice (htext _)).1 (by decide)
  · exact ((decode_members hsome (htext _)).2.1 (by decide)).1 _ (by decide)
  · refine ((decode_members hall (htext _)).2.2 _ _ hback (htext _)).2 hnodup ?_
    exact (List.reverse_perm shuffled).filter _

end Message

end Overlay
