import Overlay.Directory
import Overlay.Fanout.Basic
import Overlay.Settings.Basic

/-!
# Engines

An engine stands for one cloud in one process. It looks at a message that comes in and decides
whether it is meant for this process at all, and if so what follows from it: a change among its
contacts, a question to an agent it has not heard of, or the message goes to the listeners. Whether
it is meant for this process or not, the message is a sign of life of its sender.

A contact that has not been heard of for the agent timeout is quiet and gets a ping; one that is
quiet for the timeout times the retries is lost. The engine reads its own clock for both.
-/

namespace Overlay

abbrev GatewayId := Nat

abbrev BoardId := Nat

/-- Who listens to an engine. -/
inductive Hearer where
  /-- Notes every message under a name. -/
  | recorder (name : String)
  /-- Answers for an agent that is attached to the cloud. -/
  | responder (agent : AgentId) (cloud : Identity)
deriving DecidableEq, Repr

/-- What follows from a message that is meant for an engine. -/
inductive Reaction where
  | nothing
  /-- Its sender has arrived or left. -/
  | membership (change : MembershipChange)
  /-- Its sender is asked who it is. -/
  | enquiry
  /-- It goes to the listeners. -/
  | dispatch

/-- An engine of a cloud (`Cloud`). -/
structure Engine where
  identity : Identity
  settings : Settings
  /-- The gateways through which it sends, in the order of sending. -/
  gateways : List GatewayId
  /-- Where its joins wait to be confirmed. -/
  board : BoardId
  directory : Directory
  fanout : Fanout Hearer
  /-- What its clock shows, in milliseconds. -/
  clock : Nat
  /-- When the next liveness pass is due, in nanoseconds of the common time; none when there will be
  no more. -/
  nextPass : Option Nat
  /-- Whether it still takes what its gateways bring. -/
  present : Bool

namespace Engine

instance : Inhabited Engine := ⟨⟨default, .standard, [], 0, .empty, .empty .inline, 0, none, false⟩⟩

def outline (e : Engine) : String :=
  "Cloud \x7b iden: " ++ e.identity.outline ++ ", gateways: " ++
    Radix.decimal e.gateways.length ++ " \x7d"

/-! ## Messages that come in -/

/-- Whether a message is meant for this process: not sent by one of its own agents, not meant for an
agent elsewhere, but for the cloud or one of its own agents (`Cloud::is_admissible`). -/
def admits (e : Engine) (m : Message) : Bool :=
  !e.directory.isLocal m.sender && !e.directory.isRemote m.recipient &&
    (m.recipient == e.identity || e.directory.isLocal m.recipient)

/-- What follows from a message that is meant for this process (`Cloud::classify`). -/
def reaction (e : Engine) (m : Message) : Reaction :=
  match m.kind with
  | .presence =>
    match m.payload.membershipChange with
    | some change => .membership change
    | none => .nothing
  | .pong => if e.directory.isRemote m.sender then .nothing else .enquiry
  | _ => .dispatch

/-- The engine after an arrival or a departure at a time (`RegistryView`). -/
def changed (e : Engine) (sender : Identity) (change : MembershipChange) (now : Nat) : Engine :=
  match change with
  | .arrival endpoints => { e with directory := e.directory.announce sender endpoints now }
  | .departure => { e with directory := e.directory.removeRemote sender }

def touched (e : Engine) (sender : Identity) (now : Nat) : Engine :=
  { e with directory := e.directory.touch sender now }

/-! ## Liveness -/

/-- For how long the contact in a slot has not been heard of; no time at all if that was in the
future. -/
def idle (e : Engine) (s : Slot) : Nat :=
  e.clock - (e.directory.contact s).lastSeen

/-- Whether a contact has been quiet for long enough to be asked. -/
def isQuiet (e : Engine) (s : Slot) : Bool :=
  e.settings.agentTimeoutMillis ≤ e.idle s

/-- Whether a contact has been quiet for long enough to be given up. -/
def isLost (e : Engine) (s : Slot) : Bool :=
  e.settings.evictionMillis ≤ e.idle s

/-- The engine after it has given up an identity, if the contact in a slot is lost and the identity
is known (`Cloud::probe_quiet_agents`). The slot may be that of an earlier contact of the identity.
-/
def evicted? (e : Engine) (contact : Identity) (s : Slot) : Option Engine :=
  if e.isLost s && e.directory.isRemote contact then
    some { e with directory := e.directory.removeRemote contact }
  else none

end Engine

end Overlay
