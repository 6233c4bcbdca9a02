import Overlay.Bus
import Overlay.Proofs.Wire.Depth
import Overlay.Proofs.Wire.Value

/-!
# Messages that have been written

Every part of the wire form is read back as what was written and shows where it is cut short. The
one part that may be refused is the data of an application: they are read if there is room for their
depth (`Payload.reads_read`), and otherwise refuse the payload and with it the message
(`Message.decode_encode_of_lt`). Numbers that are no integers are left out, since they may change on
the way.
-/

namespace Overlay

open Wire Wire.Reader

variable {room : Nat} {rest : List UInt8}

/-! ## Endpoints -/

theorem Endpoint.reads_read (e : Endpoint) :
    Reads (Endpoint.read (room + 1)) e.toJson.text e := by
  obtain ⟨kind, host, port⟩ := e
  have hport : port.toNat < 0x10000 := port.toNat_lt
  have hkind : named EndpointKind.tags kind.tag = .ok kind := by cases kind <;> rfl
  exact Schema.reads_read
    (.cons (Schema.reads_readMember rfl rfl ((reads_readTag hkind).streamed_map _)) <|
      .cons (Schema.reads_readMember rfl rfl ((reads_readString host).streamed_map _)) <|
      .cons (Schema.reads_readMember rfl rfl
        ((reads_readWord hport (by decide)).streamed_map _)) (.nil _)) (by simp [schema, need]; rfl)

namespace EndpointSet

theorem readsAll_toList (l : List Endpoint) :
    ReadsAll (Endpoint.read (room + 1)) (l.map Endpoint.toJson) l := by
  induction l with
  | nil => exact .nil
  | cons e l ih => exact .cons e.reads_read (fun _ => opens_object _) ih

theorem reads_read (s : EndpointSet) : Reads (EndpointSet.read (room + 2)) s.toJson.text s := by
  have h : Reads (EndpointSet.read (room + 2)) s.toJson.text (ofList s.toList) :=
    (reads_readList (readsAll_toList s.toList)).streamed_map ofList
  rwa [ofList_toList] at h

end EndpointSet

/-! ## Payloads -/

namespace Payload

variable {tag : Tag} {p : Payload} {kind : String} {body : Json} {first : Bool}

theorem nextPart_close : nextPart first (closeBrace :: rest) = .ok (none, closeBrace :: rest) := by
  rw [nextPart, List.length_cons]
  exact (bind_of_ok nextKey_close).trans rfl

theorem nextPart_part {key : String} {part : Part} (h : partOf? key = some part) :
    nextPart first (Utf8.encode ((if first then [] else [',']) ++ Json.stringText key) ++ rest) =
      .ok (some part, rest) := by
  rw [nextPart]
  refine (bind_of_ok (nextKey_key key)).trans ?_
  simp only [h]
  rfl

theorem starved_nextPart_nil : Starved (nextPart first []) :=
  starved_nextKey_nil.bind

theorem starves_nextPart (key : String) :
    Starves (nextPart first)
      (Utf8.encode ((if first then [] else [',']) ++ Json.stringText key)) := fun p hp =>
  (starves_nextKey key p hp).bind

theorem endParts_close : endParts p (closeBrace :: rest) = .ok (p, rest) := by
  refine (bind_of_ok nextPart_close).trans ?_
  exact (bind_of_ok endObject_close).trans rfl

theorem starves_endParts : Starves (endParts p) [closeBrace] := by
  intro q hq
  rw [cut_singleton hq]
  exact starved_nextPart_nil.bind

/-- What is read of a payload whose kind stands at its front, once the kind is known. -/
def readRest (tag : Tag) : Streamed Payload := fun room => do
  match ← nextPart false with
  | some .kind => fail (duplicate .kind)
  | some .body =>
    colonMark
    endParts (← readBody tag room)
  | none =>
    let p ← lift (withoutBody tag)
    endObject
    return p

/-- What is read of a payload whose kind stands at its front. -/
theorem readParts_kind {ms : List (String × Json)} (h : named tags kind = .ok tag) :
    readParts room (Utf8.encode (membersText true (("kind", .string kind) :: ms)) ++
        closeBrace :: rest) =
      readRest tag room (Utf8.encode (membersText false ms) ++ closeBrace :: rest) := by
  rw [encode_members, encode_colon]
  refine (bind_of_ok (nextPart_part rfl)).trans ?_
  refine (bind_of_ok rfl).trans ?_
  exact bind_of_ok (takes_readTag h _ (closes_membersText ms))

theorem starves_readParts_kind {ms : List (String × Json)} (h : named tags kind = .ok tag)
    (hrest : Starves (readRest tag room) (Utf8.encode (membersText false ms) ++ [closeBrace])) :
    Starves (readParts room)
      (Utf8.encode (membersText true (("kind", .string kind) :: ms)) ++ [closeBrace]) := by
  rw [encode_members, encode_colon]
  refine (starves_nextPart "kind").bind (fun _ => nextPart_part rfl) ?_
  refine starves_colonMark.bind (fun _ => rfl) ?_
  refine (reads_readTag h).starves_bind (closes_membersText ms) (fun _ => ?_) hrest
  exact starved_nextPart_nil.bind

theorem read_openBrace (bytes : List UInt8) :
    Payload.read (room + 1) (openBrace :: bytes) = readParts room bytes := rfl

theorem read_object {ms : List (String × Json)} :
    Payload.read (room + 1) (Utf8.encode (Json.object ms).text ++ rest) =
      readParts room (Utf8.encode (membersText true ms) ++ closeBrace :: rest) := by
  rw [encode_object, read_openBrace]

theorem starves_read_object {ms : List (String × Json)}
    (h : Starves (readParts room) (Utf8.encode (membersText true ms) ++ [closeBrace])) :
    Starves (Payload.read (room + 1)) (Utf8.encode (Json.object ms).text) :=
  starves_object starved_look.bind read_openBrace h

theorem reads_read_null : Reads (Payload.read (room + 1)) Payload.null.toJson.text .null := by
  refine ⟨fun rest _ => ?_, ?_⟩
  · refine (read_object.trans (readParts_kind rfl)).trans ?_
    refine (bind_of_ok nextPart_close).trans ?_
    refine (bind_of_ok rfl).trans ?_
    exact (bind_of_ok endObject_close).trans rfl
  · refine (starves_read_object (starves_readParts_kind rfl fun q hq => ?_)).fades
    rw [cut_singleton (b := closeBrace) hq]
    exact starved_nextPart_nil.bind

/-- What is read behind the kind of a payload with a body. -/
theorem readRest_body (bytes : List UInt8) :
    readRest tag room
        (Utf8.encode ((if false then [] else [',']) ++ Json.stringText "body") ++
          (colon :: bytes)) =
      (readBody tag room >>= endParts) bytes := by
  refine (bind_of_ok (nextPart_part rfl)).trans ?_
  exact bind_of_ok rfl

/-- A payload with a body is read by way of its kind. -/
theorem reads_read_tagged (hkind : named tags kind = .ok tag)
    (hbody : Reads (readBody tag room) body.text p) :
    Reads (Payload.read (room + 1)) (tagged kind body).text p := by
  refine ⟨fun rest _ => ?_, ?_⟩
  · refine (read_object.trans (readParts_kind hkind)).trans ?_
    rw [encode_members, encode_colon, List.cons_append, readRest_body]
    exact (bind_of_ok (hbody.takes _ closes_closeBrace)).trans endParts_close
  · refine (starves_read_object (starves_readParts_kind hkind ?_)).fades
    rw [encode_members, encode_colon]
    refine (starves_nextPart "body").bind (fun _ => nextPart_part rfl) ?_
    refine starves_colonMark.bind (fun _ => rfl) ?_
    exact hbody.starves_bind closes_closeBrace (fun _ => starved_nextPart_nil.bind) starves_endParts

/-- A payload is refused with its body. -/
theorem refuses_read_tagged {fault : Fault} (hkind : named tags kind = .ok tag)
    (hbody : Refuses (readBody tag room) body.text fault) :
    Refuses (Payload.read (room + 1)) (tagged kind body).text fault := by
  intro rest _
  refine (read_object.trans (readParts_kind hkind)).trans ?_
  rw [encode_members, encode_colon, List.cons_append, readRest_body]
  exact bind_of_error (hbody _ closes_closeBrace)

theorem reads_presence (present : Bool) (s : EndpointSet) :
    Reads (readBody .presence (room + 3))
      (Json.object [("present", .bool present), ("endpoints", s.toJson)]).text
      (.presence present s) :=
  Schema.reads_readObject
    (.cons (Schema.reads_readMember rfl rfl ((reads_readBool present).streamed_map _)) <|
      .cons (Schema.reads_readMember rfl rfl (s.reads_read.streamed_map _)) (.nil _)) rfl

theorem reads_service (name : String) (s : EndpointSet) :
    Reads (readBody .service (room + 3))
      (Json.object [("name", .string name), ("endpoints", s.toJson)]).text (.service name s) :=
  Schema.reads_readObject
    (.cons (Schema.reads_readMember rfl rfl ((reads_readString name).streamed_map _)) <|
      .cons (Schema.reads_readMember rfl rfl (s.reads_read.streamed_map _)) (.nil _)) rfl

theorem reads_about (title : String) (make : Identity → Payload) (i : Identity) :
    Reads ((aboutSchema title make readIdentity).readObject (room + 1))
      (Json.object [("about", i.toJson)]).text (make i) :=
  Schema.reads_readObject
    (.cons (Schema.reads_readMember rfl rfl ((reads_readIdentity i).streamed_map _)) (.nil _)) rfl

theorem reads_app {b : Body} (hwhole : b.tree.isWhole = true) (hdepth : b.tree.depth ≤ room) :
    Reads (readBody .app room) b.tree.text (.app b) := by
  have h := (reads_value hwhole hdepth).map fun j => app (.ofJson j)
  rwa [Body.ofJson_tree] at h

/-- **A payload is read as what was written if there is room for the data in it.** -/
theorem reads_read {p : Payload} (hwhole : p.isWhole = true) (hdepth : p.bodyDepth ≤ room + 3) :
    Reads (Payload.read (room + 4)) p.toJson.text p := by
  cases p with
  | null => exact reads_read_null
  | presence present s => exact reads_read_tagged rfl (reads_presence present s)
  | fault about => exact reads_read_tagged rfl (reads_about _ _ about)
  | service name s => exact reads_read_tagged rfl (reads_service name s)
  | enquiry about => exact reads_read_tagged rfl (reads_about _ _ about)
  | app b => exact reads_read_tagged rfl (reads_app hwhole hdepth)

theorem refuses_read {p : Payload} (hwhole : p.isWhole = true) (hdepth : room < p.bodyDepth) :
    Refuses (Payload.read (room + 1)) p.toJson.text (.malformed .tooDeep) := by
  cases p with
  | app b =>
    have hbody : Refuses (readBody .app room) b.tree.text (.malformed .tooDeep) :=
      fun rest hrest => bind_of_error (refuses_value hwhole hdepth rest hrest)
    exact refuses_read_tagged rfl hbody
  | null | presence | fault | service | enquiry => exact absurd hdepth (Nat.not_lt_zero _)

end Payload

/-! ## Messages -/

theorem Signature.reads_read? (s : Signature) :
    Reads (Signature.read? (room + 1)) s.toJson.text (some s) := by
  have hread : Reads (Signature.schema.read (room + 1)) s.toJson.text s :=
    Schema.reads_read
      (.cons (Schema.reads_readMember rfl rfl ((reads_readString s.keyId).streamed_map _)) <|
        .cons (Schema.reads_readMember rfl rfl ((reads_readString s.value).streamed_map _))
          (.nil _)) rfl
  refine ⟨fun rest hrest => ?_, fun p hp => ?_⟩
  · have hread := hread.takes rest hrest
    rw [Signature.toJson, encode_object] at hread ⊢
    refine (bind_of_ok (look?_cons (by decide))).trans ?_
    rw [if_neg (by decide)]
    exact (bind_of_ok hread).trans rfl
  · rcases cut_object hp with rfl | ⟨q, rfl, hq⟩
    · have hend : Starved (Signature.schema.read (room + 1) []) := starved_look.bind
      exact .inl (Starved.after rfl hend.bind)
    · rcases hread.fades _ hp with hstarved | ⟨a, ha⟩
      · exact .inl (Starved.after (look?_cons (by decide)) hstarved.bind)
      · exact .inr ⟨some a, (bind_of_ok (look?_cons (by decide))).trans ((bind_of_ok ha).trans rfl)⟩

namespace Message

variable {m : Message}

theorem named_tag (k : MessageKind) : named MessageKind.tags k.tag = .ok k := by
  cases k <;> rfl

theorem reads_readUInt64 (n : UInt64) :
    Reads (readUInt64 room) (Json.number (.ofUInt64 n)).text n := by
  have h : Reads (readUInt64 room) (Json.nat n.toNat).text (UInt64.ofNat n.toNat) :=
    (reads_readWord n.toNat_lt (by decide)).streamed_map _
  rw [number_ofUInt64]
  rwa [UInt64.ofNat_toNat] at h

def header (m : Message) : List (String × Json) :=
  [("uuid", .string (String.ofList m.uuid.hyphenated)), ("type", .string m.kind.tag),
   ("from", m.sender.toJson), ("to", m.recipient.toJson),
   ("seq", .number (.ofUInt64 m.sequence)), ("reliable", .bool m.reliable)]

def trailer (m : Message) : List (String × Json) :=
  match m.signature with
  | none => []
  | some s => [("signature", s.toJson)]

theorem toJson_eq (m : Message) :
    m.toJson = .object (m.header ++ ("data", m.payload.toJson) :: m.trailer) := rfl

/-- What is known of a message when all but its signature has been read. -/
def draft (m : Message) : Draft :=
  ⟨some m.uuid, some m.kind, some m.sender, some m.recipient, some m.sequence, some m.reliable,
    some m.payload, none⟩

/-- What is known of a message when only its header has been read. -/
def headDraft (m : Message) : Draft :=
  { m.draft with payload := none }

theorem readsMembers_header (m : Message) :
    ReadsMembers (schema.readMember (room + 1)) schema.blank m.header m.headDraft :=
  .cons (Schema.reads_readMember rfl rfl ((reads_readUuid m.uuid).streamed_map _)) <|
    .cons (Schema.reads_readMember rfl rfl ((reads_readTag (named_tag m.kind)).streamed_map _)) <|
    .cons (Schema.reads_readMember rfl rfl ((reads_readIdentity m.sender).streamed_map _)) <|
    .cons (Schema.reads_readMember rfl rfl ((reads_readIdentity m.recipient).streamed_map _)) <|
    .cons (Schema.reads_readMember rfl rfl ((reads_readUInt64 m.sequence).streamed_map _)) <|
    .cons (Schema.reads_readMember rfl rfl ((reads_readBool m.reliable).streamed_map _)) (.nil _)

theorem readsMembers_trailer (m : Message) :
    ∃ d, ReadsMembers (schema.readMember (room + 1)) m.draft m.trailer d ∧ schema.finish d = .ok m := by
  obtain ⟨uuid, kind, sender, recipient, sequence, reliable, payload, signature⟩ := m
  cases signature with
  | none => exact ⟨_, .nil _, rfl⟩
  | some s =>
    exact ⟨_, .cons (Schema.reads_readMember rfl rfl (s.reads_read?.streamed_map _)) (.nil _), rfl⟩

/-- The members of a message are read one by one if its payload can be. -/
theorem readsMembers (h : Reads (Payload.read (room + 1)) m.payload.toJson.text m.payload) :
    ∃ d, ReadsMembers (schema.readMember (room + 1)) schema.blank
        (m.header ++ ("data", m.payload.toJson) :: m.trailer) d ∧ schema.finish d = .ok m := by
  obtain ⟨d, htrailer, hfinish⟩ := @readsMembers_trailer room m
  have hdata := Schema.reads_readMember (S := schema) (d := m.headDraft) (k := "data") rfl rfl
    (h.streamed_map _)
  exact ⟨d, m.readsMembers_header.append (.cons hdata htrailer), hfinish⟩

/-- A message is read as what was written, whatever follows, if its payload can be. -/
theorem read_encode (h : Reads (Payload.read (room + 1)) m.payload.toJson.text m.payload) :
    Message.read (room + 2) (m.encode ++ rest) = .ok (m, rest) := by
  obtain ⟨d, hmembers, hfinish⟩ := readsMembers h
  rw [encode, toJson_eq]
  exact Schema.read_object hmembers.folds hfinish

/-- A message is refused with its payload. -/
theorem refuses_encode {fault : Fault}
    (h : Refuses (Payload.read (room + 1)) m.payload.toJson.text fault) :
    Refuses (Message.read (room + 2)) m.toJson.text fault := by
  have hvalue : Refuses (((fun p (d : Draft) => { d with payload := some p }) <$> Payload.read)
      (room + 1)) m.payload.toJson.text fault := fun rest hrest => bind_of_error (h rest hrest)
  have hdata : Refuses (schema.readMember (room + 1) m.headDraft "data")
      (':' :: m.payload.toJson.text) fault := Schema.refuses_readMember rfl rfl hvalue
  rw [toJson_eq]
  exact Schema.refuses_read m.readsMembers_header.folds hdata

/-- A message whose data are whole and fit is read back, whatever follows. -/
theorem read_encode_of_le (hwhole : m.payload.isWhole = true) (hdepth : m.payload.bodyDepth ≤ 125)
    (rest : List UInt8) : Message.read fullRoom (m.encode ++ rest) = .ok (m, rest) :=
  read_encode (Payload.reads_read hwhole hdepth)

theorem decode_encode_of_le (hwhole : m.payload.isWhole = true)
    (hdepth : m.payload.bodyDepth ≤ 125) : decode m.encode = .ok m := by
  have hread := read_encode_of_le hwhole hdepth []
  rw [List.append_nil] at hread
  simp [decode, whole, hread]

theorem decode_encode_of_lt (hwhole : m.payload.isWhole = true)
    (hdepth : 125 < m.payload.bodyDepth) : decode m.encode = .error (.malformed .tooDeep) := by
  have hread := refuses_encode (Payload.refuses_read hwhole hdepth) [] trivial
  rw [List.append_nil] at hread
  have hread' : Message.read fullRoom m.encode = .error (.malformed .tooDeep) := hread
  simp [decode, whole, hread']

end Message

/-- **A message that carries no data of an application arrives as it was sent.** -/
theorem Bus.carried_of_not_app {m : Message} (h : ∀ b, m.payload ≠ .app b) : carried m = .ok m := by
  have hpayload : m.payload.isWhole = true ∧ m.payload.bodyDepth = 0 := by
    cases hp : m.payload with
    | app b => exact absurd hp (h b)
    | null | presence | fault | service | enquiry => exact ⟨rfl, rfl⟩
  exact Message.decode_encode_of_le hpayload.1 (by omega)

end Overlay
