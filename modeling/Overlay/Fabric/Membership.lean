import Overlay.Fabric.Traffic

/-!
# Joining and leaving

A join is made of parts between which others may act. First the agent is registered and a session is
opened; then it announces itself and asks who is there; then it waits. When the wait is over,
whether confirmed or not, its responder is subscribed and it is attached. A join that is dropped
before that leaves no trace: its session is released, the agent is detached again and its
registration, if it is this agent's, is removed.

To leave is to detach the agent and end its responder, to announce the departure, and to remove the
registration.
-/

namespace Overlay

/-- A join that waits for its confirmation. -/
structure Join where
  agent : AgentId
  engine : EngineId
  session : SessionId
deriving DecidableEq, Repr

namespace Fabric

/-! ## Joining -/

/-- Registers an agent with an engine. -/
def enroll (f : Fabric) (a : AgentId) (e : EngineId) : Except Refusal Fabric :=
  let identity := (f.member a).agent.identity
  match (f.member a).standing with
  | .detached =>
    match (f.engine e).directory.insertLocal? identity a with
    | some directory => .ok ((f.setStanding a (.joining e)).setDirectory e directory)
    | none => .error (.alreadyRegistered identity (f.engine e).identity)
  | _ => .error (.alreadyAttached identity)

/-- Opens a session for an agent (`JoinSession::open`). -/
def openSession (f : Fabric) (a : AgentId) (e : EngineId) : Fabric × Join :=
  let b := (f.engine e).board
  let (board, s) := (f.board b).2.start (f.member a).agent.identity
  (f.setBoard b board, ⟨a, e, s⟩)

def announceArrival (f : Fabric) (a : AgentId) (e : EngineId) : Fabric :=
  let (uuid, f) := f.fresh
  let agent := (f.member a).agent
  (f.send e (.presence uuid agent.identity (f.engine e).identity agent.endpoints)).1

/-- Asks the cloud on behalf of an agent who is there. -/
def askAround (f : Fabric) (a : AgentId) (e : EngineId) : Fabric :=
  let (uuid, f) := f.fresh
  (f.send e (.discovery uuid (f.member a).agent.identity (f.engine e).identity)).1

/-- A join up to the point where it waits (`Cloud::join`). -/
def beginJoin (f : Fabric) (a : AgentId) (e : EngineId) : Except Refusal (Fabric × Join) := do
  let f ← f.enroll a e
  let (f, j) := f.openSession a e
  return ((f.announceArrival a e).askAround a e, j)

/-- A join begins to wait on behalf of a thread; whether it is confirmed already
(`JoinSession::wait`). -/
def beginWait (f : Fabric) (j : Join) (t : ThreadId) : Fabric × Bool :=
  let b := (f.engine j.engine).board
  let (board, confirmed) := (f.board b).2.wait j.session t
  (f.setBoard b board, confirmed)

/-- The session of a join is released, and a thread that waits on it waits no longer. -/
def releaseSession (f : Fabric) (j : Join) (t : ThreadId) : Fabric :=
  let b := (f.engine j.engine).board
  f.setBoard b (((f.board b).2.giveUp j.session t).release j.session)

/-- Attaches an agent and subscribes its responder. -/
def attach (f : Fabric) (a : AgentId) (e : EngineId) : Fabric :=
  let (fanout, s) := (f.engine e).fanout.subscribe (.responder a (f.engine e).identity)
  (f.setFanout e fanout).setStanding a (.joined e s)

/-- A join whose wait is over comes to its end (`LocalAgent::join`). -/
def finishJoin (f : Fabric) (j : Join) (t : ThreadId) : Fabric :=
  (f.releaseSession j t).attach j.agent j.engine

/-- A join is dropped while it waits (`Cloud::abandon_join`). -/
def dropJoin (f : Fabric) (j : Join) (t : ThreadId) : Fabric :=
  let f := (f.releaseSession j t).setStanding j.agent .detached
  f.setDirectory j.engine
    ((f.engine j.engine).directory.removeLocalAgent (f.member j.agent).agent.identity j.agent)

/-! ## Leaving -/

/-- Detaches an agent and ends its responder; the engine to which it was attached. -/
def detach (f : Fabric) (a : AgentId) : Except Refusal (Fabric × EngineId) :=
  match (f.member a).standing with
  | .detached => .error .neverJoined
  | .joining _ => .error (.stillJoining (f.member a).agent.identity)
  | .joined e s =>
    .ok ((f.setStanding a .detached).setFanout e ((f.engine e).fanout.unsubscribe s), e)

def announceDeparture (f : Fabric) (a : AgentId) (e : EngineId) : Fabric :=
  let (uuid, f) := f.fresh
  (f.send e (.absence uuid (f.member a).agent.identity (f.engine e).identity)).1

def unregister (f : Fabric) (a : AgentId) (e : EngineId) : Fabric :=
  f.setDirectory e ((f.engine e).directory.removeLocal (f.member a).agent.identity)

/-- An agent leaves (`LocalAgent::leave`). -/
def leave (f : Fabric) (a : AgentId) : Except Refusal Fabric := do
  let (f, e) ← f.detach a
  return (f.announceDeparture a e).unregister a e

/-! ## Sending for an agent -/

/-- An attached agent sends a message through its engine (`LocalAgent::send`). -/
def sendFrom (f : Fabric) (a : AgentId) (m : Message) :
    Except Refusal (Fabric × Receipt DeliveryStatus) :=
  match (f.member a).standing with
  | .joined e _ => .ok (f.send e m)
  | _ => .error (.notJoined (f.member a).agent.identity)

end Fabric

end Overlay
