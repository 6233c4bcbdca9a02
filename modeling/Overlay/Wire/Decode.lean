import Overlay.Message.Basic
import Overlay.Wire.Record

/-!
# Reading messages

The records of the wire form. The body of a payload is read off the text if the kind comes first; if
it comes before its kind it is read as a tree, and the record is taken from the tree once the kind
is known. The two ways share their schemas, so they agree on what is a payload and what is not.
-/

namespace Overlay

open Wire Wire.Reader

def Wire.readUInt64 : Streamed UInt64 :=
  UInt64.ofNat <$> readWord 0x10000000000000000 "u64"

/-! ## Endpoints -/

namespace Endpoint

/-- What is known of an endpoint that is being read. -/
structure Draft where
  kind : Option EndpointKind
  host : Option String
  port : Option UInt16

/-- The record of an endpoint, over ways to read its parts. -/
def schema {R : Type → Type} [Functor R] (kind : R EndpointKind) (host : R String) (port : R Nat) :
    Schema R Draft Endpoint where
  title := "struct Endpoint"
  fields :=
    [⟨"kind", true, fun d => d.kind.isSome, (fun k d => { d with kind := some k }) <$> kind⟩,
     ⟨"host", true, fun d => d.host.isSome, (fun h d => { d with host := some h }) <$> host⟩,
     ⟨"port", true, fun d => d.port.isSome,
       (fun p d => { d with port := some (UInt16.ofNat p) }) <$> port⟩]
  blank := ⟨none, none, none⟩
  finish d := do
    return ⟨← need "kind" d.kind, ← need "host" d.host, ← need "port" d.port⟩

def read : Streamed Endpoint :=
  (schema (readTag EndpointKind.tags) (readString "a string") (readWord 0x10000 "u16")).read

def ofJson : Buffered Endpoint :=
  (schema (tagIn EndpointKind.tags) (stringOf "a string") (wordIn 0x10000 "u16")).ofJson

def decode (bytes : List UInt8) : Except Fault Endpoint :=
  whole (read fullRoom) bytes

end Endpoint

/-- A set of endpoints, off the text, where they may come in any order and repeat. -/
def EndpointSet.read : Streamed EndpointSet :=
  EndpointSet.ofList <$> readList Endpoint.read

def EndpointSet.ofJson : Buffered EndpointSet :=
  EndpointSet.ofList <$> listIn Endpoint.ofJson

/-! ## Payloads -/

namespace Payload

/-- What is known of a presence body that is being read. -/
structure PresenceDraft where
  present : Option Bool
  endpoints : Option EndpointSet

def presenceSchema {R : Type → Type} [Functor R] (present : R Bool) (endpoints : R EndpointSet) :
    Schema R PresenceDraft Payload where
  title := "struct variant Payload::Presence"
  fields :=
    [⟨"present", true, fun d => d.present.isSome,
       (fun p d => { d with present := some p }) <$> present⟩,
     ⟨"endpoints", false, fun d => d.endpoints.isSome,
       (fun e d => { d with endpoints := some e }) <$> endpoints⟩]
  blank := ⟨none, none⟩
  finish d := do
    return .presence (← need "present" d.present) (d.endpoints.getD .empty)

/-- What is known of a service body that is being read. -/
structure ServiceDraft where
  name : Option String
  endpoints : Option EndpointSet

def serviceSchema {R : Type → Type} [Functor R] (name : R String) (endpoints : R EndpointSet) :
    Schema R ServiceDraft Payload where
  title := "struct variant Payload::Qne"
  fields :=
    [⟨"name", true, fun d => d.name.isSome, (fun n d => { d with name := some n }) <$> name⟩,
     ⟨"endpoints", false, fun d => d.endpoints.isSome,
       (fun e d => { d with endpoints := some e }) <$> endpoints⟩]
  blank := ⟨none, none⟩
  finish d := do
    return .service (← need "name" d.name) (d.endpoints.getD .empty)

def aboutSchema {R : Type → Type} [Functor R] (title : String) (make : Identity → Payload)
    (about : R Identity) : Schema R (Option Identity) Payload where
  title := title
  fields := [⟨"about", true, fun d => d.isSome, (fun a _ => some a) <$> about⟩]
  blank := none
  finish d := do
    return make (← need "about" d)

/-- The kinds of payloads. -/
inductive Tag where
  | null
  | presence
  | fault
  | service
  | enquiry
  | app
deriving DecidableEq, Repr

def tags : List (String × Tag) :=
  [("null", .null), ("presence", .presence), ("fault", .fault), ("qne", .service),
   ("enquiry", .enquiry), ("app", .app)]

/-- The body of an empty payload is null. -/
def nothing (expected : String) : Json → Except Fault Payload
  | .null => .ok .null
  | j => .error (wrongType (foundIn j) expected)

/-- What is expected as the body of an empty payload. -/
def nullTitle : String := "unit variant Payload::Null"

def readNothing : Streamed Payload := fun room => do
  let b ← look .value
  match ← scalar? b with
  | some j => lift (nothing nullTitle j)
  | none =>
    opened room fun _ =>
      fail (wrongType (if b = openBracket then .sequence else .map) nullTitle)

/-- The body of a payload of known kind, off the text. -/
def readBody : Tag → Streamed Payload
  | .null => readNothing
  | .presence => (presenceSchema readBool EndpointSet.read).readObject
  | .fault => (aboutSchema "struct variant Payload::Fault" .fault readIdentity).readObject
  | .service => (serviceSchema (readString "a string") EndpointSet.read).readObject
  | .enquiry => (aboutSchema "struct variant Payload::Enquiry" .enquiry readIdentity).readObject
  | .app => fun room => do return .app (.ofJson (← value room))

/-- The body of a payload of known kind, from a tree. -/
def bodyOf : Tag → Buffered Payload
  | .null => nothing nullTitle
  | .presence => (presenceSchema boolOf EndpointSet.ofJson).ofObject
  | .fault => (aboutSchema "struct variant Payload::Fault" .fault identityIn).ofObject
  | .service => (serviceSchema (stringOf "a string") EndpointSet.ofJson).ofObject
  | .enquiry => (aboutSchema "struct variant Payload::Enquiry" .enquiry identityIn).ofObject
  | .app => fun j => .ok (.app (.ofJson j))

/-- The refusal of a payload without a field. -/
def missing (name : String) : Fault :=
  .misfit (.missingField name)

/-- The payload of a kind without a body: only the empty one needs none. -/
def withoutBody : Tag → Except Fault Payload
  | .null => .ok .null
  | _ => .error (missing "body")

/-- Which of the two members of a payload a key names. -/
inductive Part where
  | kind
  | body
deriving DecidableEq

/-- Which of the two members a key names, if any. -/
def partOf? (key : String) : Option Part :=
  if key = "kind" then some .kind else if key = "body" then some .body else none

/-- Skips members up to the next one that matters, in at most `rounds` rounds; none at the brace. -/
def nextPartIn : Nat → Bool → Reader (Option Part)
  | 0, _ => fail (.truncated .object)
  | rounds + 1, first => do
    match ← nextKey first with
    | none => return none
    | some key =>
      match partOf? key with
      | some part => return some part
      | none =>
        colonMark
        skipValue
        nextPartIn rounds false

def nextPart (first : Bool) : Reader (Option Part) :=
  fun bytes => nextPartIn (bytes.length + 1) first bytes

def duplicate : Part → Fault
  | .kind => .misfit (.duplicateField "kind")
  | .body => .misfit (.duplicateField "body")

/-- Ends a payload: no further member that matters may follow. -/
def endParts (p : Payload) : Reader Payload := do
  match ← nextPart false with
  | some part => fail (duplicate part)
  | none =>
    endObject
    return p

/-- A payload from an object whose opening brace is gone. -/
def readParts : Streamed Payload := fun room => do
  match ← nextPart true with
  | none => fail (missing "kind")
  | some .kind => do
    colonMark
    let tag ← readTag tags room
    match ← nextPart false with
    | some .kind => fail (duplicate .kind)
    | some .body =>
      colonMark
      endParts (← readBody tag room)
    | none =>
      let p ← lift (withoutBody tag)
      endObject
      return p
  | some .body => do
    colonMark
    let body ← value room
    match ← nextPart false with
    | some .kind =>
      colonMark
      let tag ← readTag tags room
      endParts (← lift (bodyOf tag body))
    | some .body => fail (duplicate .body)
    | none => fail (missing "kind")

/-- What is expected in place of a payload. -/
def title : String := "adjacently tagged enum Payload"

/-- A payload from an array of its kind and its body whose opening bracket is gone. The kind is
given by its name alone. -/
def readPair : Streamed Payload := fun room => do
  if !(← nextElement true) then fail (.misfit (.wrongLength 0 title))
  let tag ← readName tags room
  if !(← nextElement false) then fail (.misfit (.wrongLength 1 title))
  let p ← readBody tag room
  endArray
  return p

def read : Streamed Payload := fun room => do
  let b ← look .value
  if b = openBracket then opened room readPair
  else if b = openBrace then opened room readParts
  else unexpected b title

/-- The payload of a whole text. -/
def decode (bytes : List UInt8) : Except Fault Payload :=
  whole (read fullRoom) bytes

def ofMembers (members : List (String × Json)) : Except Fault Payload :=
  match members.filter (·.1 = "kind"), members.filter (·.1 = "body") with
  | _ :: _ :: _, _ => .error (duplicate .kind)
  | _, _ :: _ :: _ => .error (duplicate .body)
  | [], _ => .error (missing "kind")
  | [(_, kind)], [] => tagIn tags kind >>= withoutBody
  | [(_, kind)], [(_, body)] => do bodyOf (← tagIn tags kind) body

def ofItems : List Json → Except Fault Payload
  | [] => .error (.misfit (.wrongLength 0 title))
  | [kind] => do
    let _ ← nameIn tags kind
    throw (.misfit (.wrongLength 1 title))
  | kind :: body :: rest => do
    let p ← bodyOf (← nameIn tags kind) body
    if rest.isEmpty then return p
    else throw (.misfit (.wrongLength (rest.length + 2) (elementCount 2 ++ " in sequence")))

def ofJson : Buffered Payload
  | .object members => ofMembers members
  | .array items => ofItems items
  | j => .error (wrongType (foundIn j) title)

end Payload

/-! ## Messages -/

namespace Signature

structure Draft where
  keyId : Option String
  value : Option String

def schema : Schema Streamed Draft Signature where
  title := "struct Signature"
  fields :=
    [⟨"key_id", true, fun d => d.keyId.isSome,
       (fun k d => { d with keyId := some k }) <$> readString "a string"⟩,
     ⟨"value", true, fun d => d.value.isSome,
       (fun v d => { d with value := some v }) <$> readString "a string"⟩]
  blank := ⟨none, none⟩
  finish d := do
    return ⟨← need "key_id" d.keyId, ← need "value" d.value⟩

/-- A signature or null, off the text. -/
def read? : Streamed (Option Signature) := fun room => do
  if (← look?) = some (ascii 'n') then
    skip
    keyword ['u', 'l', 'l']
    return none
  else
    return some (← schema.read room)

end Signature

namespace Message

structure Draft where
  uuid : Option Uuid
  kind : Option MessageKind
  sender : Option Identity
  recipient : Option Identity
  sequence : Option UInt64
  reliable : Option Bool
  payload : Option Payload
  /-- The signature, once the member is there; it may be null. -/
  signature : Option (Option Signature)

/-- The fields of a message in the order of their declaration. -/
def fields : List (Field Streamed Draft) :=
  [⟨"uuid", true, fun d => d.uuid.isSome, (fun v d => { d with uuid := some v }) <$> readUuid⟩,
   ⟨"type", true, fun d => d.kind.isSome,
     (fun v d => { d with kind := some v }) <$> readTag MessageKind.tags⟩,
   ⟨"from", true, fun d => d.sender.isSome,
     (fun v d => { d with sender := some v }) <$> readIdentity⟩,
   ⟨"to", true, fun d => d.recipient.isSome,
     (fun v d => { d with recipient := some v }) <$> readIdentity⟩,
   ⟨"seq", true, fun d => d.sequence.isSome,
     (fun v d => { d with sequence := some v }) <$> readUInt64⟩,
   ⟨"reliable", true, fun d => d.reliable.isSome,
     (fun v d => { d with reliable := some v }) <$> readBool⟩,
   ⟨"data", false, fun d => d.payload.isSome,
     (fun v d => { d with payload := some v }) <$> Payload.read⟩,
   ⟨"signature", false, fun d => d.signature.isSome,
     (fun v d => { d with signature := some v }) <$> Signature.read?⟩]

def schema : Schema Streamed Draft Message where
  title := "struct Message"
  fields := fields
  blank := ⟨none, none, none, none, none, none, none, none⟩
  finish d := do
    return ⟨← need "uuid" d.uuid, ← need "type" d.kind, ← need "from" d.sender,
      ← need "to" d.recipient, ← need "seq" d.sequence, ← need "reliable" d.reliable,
      d.payload.getD .null, d.signature.getD none⟩

def read : Streamed Message :=
  schema.read

/-- The message of a whole text. -/
def decode (bytes : List UInt8) : Except Fault Message :=
  whole (read fullRoom) bytes

end Message

end Overlay
