import Overlay.Wire.Fault

/-!
# Failures

What can go wrong between a caller and the overlay, with a stable code for each class of failure. A
gateway's failure shows the class of the gateway, and a text that cannot be decoded the class of the
codec, whoever met it first.
-/

namespace Overlay

/-- Why a gateway did not take a message (`GatewayError`). -/
inductive GatewayFailure where
  | closed (gateway : String)
  | refused (text : String)
  | undecodable (fault : Wire.Fault)
  | other (text : String)
deriving DecidableEq, Repr

/-- What can go wrong between a caller and the overlay (`MeshError`). -/
inductive Failure where
  | invalidState (text : String)
  | joinFailed (text : String)
  | gateway (failure : GatewayFailure)
  | undecodable (fault : Wire.Fault)
deriving DecidableEq, Repr

/-- The wording of a text that cannot be decoded. -/
def Wire.Fault.report (fault : Wire.Fault) : String :=
  "Decode error: " ++ fault.message

def GatewayFailure.message : GatewayFailure → String
  | .closed gateway => "Gateway closed: " ++ gateway
  | .refused text => "Send failed: " ++ text
  | .undecodable fault => fault.report
  | .other text => "Gateway error: " ++ text

namespace Failure

/-- The code of the class of a failure (`MeshError::code`). -/
def code : Failure → String
  | .invalidState _ => "INVALID_STATE"
  | .joinFailed _ => "JOIN_FAILED"
  | .gateway _ => "GATEWAY"
  | .undecodable _ => "CODEC"

def message : Failure → String
  | .invalidState text => "Invalid state: " ++ text
  | .joinFailed text => "Join failed: " ++ text
  | .gateway failure => failure.message
  | .undecodable fault => fault.report

end Failure

/-- Why an agent may not do what it was asked to, in the state it is in. -/
inductive Refusal where
  | neverJoined
  | stillJoining (agent : Identity)
  | notJoined (agent : Identity)
  | alreadyAttached (agent : Identity)
  | alreadyRegistered (agent cloud : Identity)
deriving DecidableEq, Repr

def Refusal.failure : Refusal → Failure
  | .neverJoined => .invalidState "Cannot leave a cloud never joined"
  | .stillJoining agent => .invalidState (agent.display ++ " is still joining")
  | .notJoined agent => .invalidState (agent.display ++ " has not joined a cloud")
  | .alreadyAttached agent => .joinFailed (agent.display ++ " is already attached to a cloud")
  | .alreadyRegistered agent cloud =>
    .joinFailed (agent.display ++ " is already registered with " ++ cloud.display)

end Overlay
