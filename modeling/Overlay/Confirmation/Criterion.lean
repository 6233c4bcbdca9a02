import Overlay.Message.Basic

/-!
# What confirms a join

An agent has joined once the overlay has shown a sign of it. Which messages count as the sign is a
choice; as a rule it is the agent's own announcement that has come back.
-/

namespace Overlay

/-- Whether a message confirms that an agent has joined (`JoinPredicate`). -/
abbrev Criterion := Message → Identity → Bool

namespace Criterion

/-- The agent's announcement of its arrival has come back (`presence_echo`). -/
def echo : Criterion := fun m agent =>
  m.kind == .presence && m.payload.isPresent == some true && m.sender == agent

def never : Criterion := fun _ _ => false

def always : Criterion := fun _ _ => true

/-- The agent has been asked who is there. -/
def discovered : Criterion := fun m agent =>
  m.kind == .discovery && m.recipient == agent

end Criterion

end Overlay
