import Overlay.Endpoint
import Overlay.Identity.Text
import Overlay.Json.Normal
import Overlay.Json.Printer

/-!
# Payloads

What a message carries. Only a presence payload says something about membership: that its sender is
there, with the endpoints at which it can be reached, or that it has gone.
-/

namespace Overlay

/-- What a message carries. -/
inductive Payload where
  | null
  /-- The sender has arrived (`present`) or is leaving. -/
  | presence (present : Bool) (endpoints : EndpointSet)
  /-- An agent has been given up because it stopped answering. -/
  | fault (about : Identity)
  /-- A service is offered under a name. -/
  | service (name : String) (endpoints : EndpointSet)
  /-- Somebody asks about an agent. -/
  | enquiry (about : Identity)
  /-- Anything that applications exchange. -/
  | app (body : Body)

/-- What a payload says about the membership of its sender (`MembershipView`). -/
inductive MembershipChange where
  | arrival (endpoints : EndpointSet)
  | departure

namespace Payload

instance : Inhabited Payload := ⟨.null⟩

/-- The announcement of an arrival (`Payload::presence`). -/
def arrival (endpoints : EndpointSet) : Payload :=
  .presence true endpoints

/-- The announcement of a departure (`Payload::absence`). -/
def departure : Payload :=
  .presence false .empty

/-- Whether a presence payload announces an arrival; none for other payloads. -/
def isPresent : Payload → Option Bool
  | .presence present _ => some present
  | _ => none

/-- The endpoints that the payload lists, if it is of a kind that does. -/
def endpoints : Payload → Option EndpointSet
  | .presence _ endpoints | .service _ endpoints => some endpoints
  | _ => none

/-- The change of membership that the payload announces, if any (`Payload::process`). -/
def membershipChange : Payload → Option MembershipChange
  | .presence true endpoints => some (.arrival endpoints)
  | .presence false _ => some .departure
  | _ => none

def equal : Payload → Payload → Bool
  | .null, .null => true
  | .presence p e, .presence q f => p == q && e == f
  | .fault a, .fault b => a == b
  | .service n e, .service m f => n == m && e == f
  | .enquiry a, .enquiry b => a == b
  | .app b, .app c => b.equal c
  | _, _ => false

def display : Payload → String
  | .null => "null"
  | .presence present endpoints =>
    "presence(present=" ++ (if present then "true" else "false") ++ ", endpoints=" ++
      Radix.decimal endpoints.size ++ ")"
  | .fault about => "fault(" ++ about.display ++ ")"
  | .service name _ => "qne(" ++ name ++ ")"
  | .enquiry about => "enquiry(" ++ about.display ++ ")"
  | .app body => body.tree.display

end Payload

end Overlay
