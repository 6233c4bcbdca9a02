import Overlay.Message.Basic
import Overlay.Text.Utf8

/-!
# The wire form of messages

A message travels as one JSON object in compact text and UTF-8. The members stand in a fixed order;
an empty payload has no body, and a message that is not signed has no signature.
-/

namespace Overlay

/-- The wire form of an identity is its text. -/
def Identity.toJson (i : Identity) : Json :=
  .string i.display

def Endpoint.toJson (e : Endpoint) : Json :=
  .object [("kind", .string e.kind.tag), ("host", .string e.host), ("port", .nat e.port.toNat)]

/-- The wire form of a set of endpoints lists them in ascending order. -/
def EndpointSet.toJson (s : EndpointSet) : Json :=
  .array (s.toList.map Endpoint.toJson)

def Payload.tagged (kind : String) (body : Json) : Json :=
  .object [("kind", .string kind), ("body", body)]

def Payload.toJson : Payload → Json
  | .null => .object [("kind", .string "null")]
  | .presence present endpoints =>
    tagged "presence" (.object [("present", .bool present), ("endpoints", endpoints.toJson)])
  | .fault about => tagged "fault" (.object [("about", about.toJson)])
  | .service name endpoints =>
    tagged "qne" (.object [("name", .string name), ("endpoints", endpoints.toJson)])
  | .enquiry about => tagged "enquiry" (.object [("about", about.toJson)])
  | .app body => tagged "app" body.tree

def Signature.toJson (s : Signature) : Json :=
  .object [("key_id", .string s.keyId), ("value", .string s.value)]

def Message.toJson (m : Message) : Json :=
  .object <|
    [("uuid", .string (String.ofList m.uuid.hyphenated)), ("type", .string m.kind.tag),
     ("from", m.sender.toJson), ("to", m.recipient.toJson),
     ("seq", .number (.ofUInt64 m.sequence)), ("reliable", .bool m.reliable),
     ("data", m.payload.toJson)] ++
    match m.signature with
    | none => []
    | some s => [("signature", s.toJson)]

/-- The bytes of a message on the wire. -/
def Message.encode (m : Message) : List UInt8 :=
  Utf8.encode m.toJson.text

end Overlay
