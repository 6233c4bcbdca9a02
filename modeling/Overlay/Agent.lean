import Overlay.Message.Basic

/-!
# Agents of this process

An agent has an identity for good and a growing set of endpoints, which it announces whenever it
says that it is there. While it is attached to a cloud it answers those who ask who is there or
whether it is alive, if they ask the agent itself or its cloud.
-/

namespace Overlay

/-- An agent of this process (`LocalAgent`). -/
structure Agent where
  identity : Identity
  endpoints : EndpointSet
deriving DecidableEq

namespace Agent

instance : Inhabited Agent := ⟨⟨default, default⟩⟩

/-- The agent with an endpoint more to announce (`LocalAgent::register_endpoint`). -/
def withEndpoint (a : Agent) (e : Endpoint) : Agent :=
  { a with endpoints := a.endpoints.insert e }

def outline (a : Agent) (joined : Bool) : String :=
  "LocalAgent \x7b identity: " ++ a.identity.outline ++ ", joined: " ++
    (if joined then "true" else "false") ++ " \x7d"

/-- The answer to a message, if the message is for the agent or for the given cloud and asks for
one: an announcement to a discovery, a sign of life to a ping (`Responder::on_message`). -/
def reply? (a : Agent) (cloud : Identity) (uuid : Uuid) (m : Message) : Option Message :=
  if m.recipient ≠ a.identity ∧ m.recipient ≠ cloud then none
  else match m.kind with
    | .discovery => some (.presence uuid a.identity m.sender a.endpoints)
    | .ping => some (.pong uuid a.identity m.sender)
    | _ => none

end Agent

end Overlay
