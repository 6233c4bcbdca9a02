import Overlay.Message.Payload

/-!
# Messages

The envelope that travels through the overlay. A message is a value: what changes it makes another
message, and the identifier that it was made with stays. The constructors at the end are the
messages of the membership protocol.
-/

namespace Overlay

/-- What a message is for. -/
inductive MessageKind where
  /-- Carries data of applications. -/
  | app
  /-- Announces an arrival or a departure. -/
  | presence
  /-- Asks who is there. -/
  | discovery
  /-- Asks for a sign of life. -/
  | ping
  /-- Is the sign of life. -/
  | pong
  /-- Reports that an agent has been given up. -/
  | fault
  /-- Asks about an agent. -/
  | enquiry
  /-- Announces a service. -/
  | service
deriving DecidableEq, Repr

namespace MessageKind

/-- The three letters that stand for a kind. -/
def tag : MessageKind → String
  | .app => "APP"
  | .presence => "PRS"
  | .discovery => "DSC"
  | .ping => "PIN"
  | .pong => "PON"
  | .fault => "FLT"
  | .enquiry => "ENQ"
  | .service => "QNE"

def tags : List (String × MessageKind) :=
  [("APP", .app), ("PRS", .presence), ("DSC", .discovery), ("PIN", .ping), ("PON", .pong),
   ("FLT", .fault), ("ENQ", .enquiry), ("QNE", .service)]

end MessageKind

/-- What a signer adds to a message. -/
structure Signature where
  keyId : String
  value : String
deriving DecidableEq, Repr

/-- The envelope that travels through the overlay. -/
structure Message where
  uuid : Uuid
  kind : MessageKind
  sender : Identity
  recipient : Identity
  sequence : UInt64
  /-- Whether acknowledged delivery is asked for. -/
  reliable : Bool
  payload : Payload
  signature : Option Signature

namespace Message

instance : Inhabited Message :=
  ⟨⟨default, .app, default, default, 0, false, .null, none⟩⟩

/-- A message with an empty payload, without signature, that asks for no acknowledgement
(`Message::new`). -/
def plain (uuid : Uuid) (kind : MessageKind) (sender recipient : Identity) : Message :=
  ⟨uuid, kind, sender, recipient, 0, false, .null, none⟩

def withPayload (m : Message) (payload : Payload) : Message :=
  { m with payload := payload }

def withSequence (m : Message) (sequence : UInt64) : Message :=
  { m with sequence := sequence }

/-- The same message, asking for acknowledged delivery (`Message::reliable`). -/
def asReliable (m : Message) : Message :=
  { m with reliable := true }

/-- A signed copy of the message (`Message::signed`). -/
def signed (m : Message) (keyId value : String) : Message :=
  { m with signature := some ⟨keyId, value⟩ }

/-- Equality of values; numbers in bodies are compared by value. -/
def equal (m n : Message) : Bool :=
  m.uuid == n.uuid && m.kind == n.kind && m.sender == n.sender && m.recipient == n.recipient &&
    m.sequence == n.sequence && m.reliable == n.reliable && m.payload.equal n.payload &&
    m.signature == n.signature

/-- A short description: kind, sender, recipient and payload. -/
def display (m : Message) : String :=
  m.kind.tag ++ " " ++ m.sender.display ++ " " ++ m.recipient.display ++ " " ++ m.payload.display

/-! ## The messages of the membership protocol -/

/-- An agent announces itself and the endpoints at which it can be reached. -/
def presence (uuid : Uuid) (sender recipient : Identity) (endpoints : EndpointSet) : Message :=
  (plain uuid .presence sender recipient).withPayload (.arrival endpoints)

def absence (uuid : Uuid) (sender recipient : Identity) : Message :=
  (plain uuid .presence sender recipient).withPayload .departure

/-- Recipients are asked to announce themselves. -/
def discovery (uuid : Uuid) (sender recipient : Identity) : Message :=
  plain uuid .discovery sender recipient

/-- The recipient is asked for a sign of life. -/
def ping (uuid : Uuid) (sender recipient : Identity) : Message :=
  plain uuid .ping sender recipient

def pong (uuid : Uuid) (sender recipient : Identity) : Message :=
  plain uuid .pong sender recipient

/-- A cloud tells itself that it has given up an agent. -/
def fault (uuid : Uuid) (cloud about : Identity) : Message :=
  (plain uuid .fault cloud cloud).withPayload (.fault about)

def enquiry (uuid : Uuid) (sender recipient about : Identity) : Message :=
  (plain uuid .enquiry sender recipient).withPayload (.enquiry about)

def app (uuid : Uuid) (sender recipient : Identity) (body : Body) : Message :=
  (plain uuid .app sender recipient).withPayload (.app body)

end Message

end Overlay
