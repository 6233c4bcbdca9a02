import Overlay.Fabric.Lifecycle
import Overlay.Fabric.Membership
import Overlay.Timer

/-!
# Commands

What can be asked of a fabric, and how that ends. Most commands are over at once. A join and a rest
may have to wait; what they wait for is then written down, so that they can be resumed.
-/

namespace Overlay

/-- What can be asked of a fabric. -/
inductive Command where
  /-- Dropped after a number of milliseconds if one is given. -/
  | join (agent : AgentId) (engine : EngineId) (cutoff : Option Nat)
  | leave (agent : AgentId)
  | sendFrom (agent : AgentId) (message : Message)
  | send (engine : EngineId) (message : Message)
  | registerEndpoint (agent : AgentId) (endpoint : Endpoint)
  | inject (bus : BusId) (message : Message)
  | process (engine : EngineId) (message : Message)
  | setClock (engine : EngineId) (now : Nat)
  | probe (engine : EngineId)
  | rest (millis : Nat)
  | shutdown (engine : EngineId)
  | drop (engine : EngineId)
  | listen (engine : EngineId) (name : String)
  | unlisten (engine : EngineId) (name : String)
  | setFailing (gateway : GatewayId) (failing : Bool)
  | setAnswer (gateway : GatewayId) (answer : Option DeliveryStatus)
  | close (gateway : GatewayId)
  | contact (engine : EngineId) (identity : Identity)
  | describe (engine : EngineId)

/-- How a command ended. -/
inductive Outcome where
  | done
  /-- Whether a join was confirmed, and after how many milliseconds. -/
  | joined (confirmed : Bool) (elapsed : Nat)
  /-- A join was dropped. -/
  | dropped
  | failed (failure : Failure)
  | receipt (receipt : Receipt DeliveryStatus)
  | endpoints (endpoints : EndpointSet)
  | flag (value : Bool)
  | contact (contact : Option Contact)
  /-- An engine, the names of its gateways, and how all agents stand. -/
  | description (engine : Engine) (gateways : List String) (members : List Member)

/-- What a command waits for. -/
inductive Pause where
  /-- A time. -/
  | rest (time : Nat)
  /-- The confirmation of a join, until a deadline or until it is dropped. -/
  | join (join : Join) (start deadline : Nat) (cutoff : Option Nat)

/-- How far a command has come. -/
inductive Progress where
  | over (outcome : Outcome)
  | paused (pause : Pause)

namespace Fabric

/-- The end of a command that may be refused. -/
def settleWith {α : Type} (f : Fabric) (result : Except Refusal α) (k : α → Fabric × Outcome) :
    Fabric × Outcome :=
  match result with
  | .ok a => k a
  | .error refusal => (f, .failed refusal.failure)

/-- The time at which something ends that may be cut off before. -/
def earliest (deadline : Nat) : Option Nat → Nat
  | some cutoff => min deadline cutoff
  | none => deadline

/-- A thread goes on with what it waits for, or waits on. A confirmation comes first, then the end
of the time that a join waits, then the cutoff. -/
def resume (f : Fabric) (t : ThreadId) : Pause → Fabric × Progress
  | .rest time => if time ≤ f.now then (f, .over .done) else (f, .paused (.rest time))
  | .join j start deadline cutoff =>
    if f.confirmed.contains t then
      ({ f with confirmed := f.confirmed.filter (· ≠ t) }.finishJoin j t,
        .over (.joined true (f.now - start)))
    else if deadline ≤ f.now then (f.finishJoin j t, .over (.joined false (f.now - start)))
    else if earliest deadline cutoff ≤ f.now then (f.dropJoin j t, .over .dropped)
    else (f, .paused (.join j start deadline cutoff))

/-- A thread begins a join, up to the point where it has to wait. -/
def startJoin (f : Fabric) (t : ThreadId) (a : AgentId) (e : EngineId) (cutoff : Option Nat) :
    Fabric × Progress :=
  match f.beginJoin a e with
  | .error refusal => (f, .over (.failed refusal.failure))
  | .ok (f, j) =>
    let (f, confirmed) := f.beginWait j t
    if confirmed then (f.finishJoin j t, .over (.joined true 0))
    else
      let deadline := timerTime f.now (f.engine e).settings.joinTimeout.nanos
      f.resume t (.join j f.now deadline (cutoff.map (f.now + ·)))

/-- A thread carries out a command that is over at once. -/
def carryOut (f : Fabric) : Command → Fabric × Outcome
  | .leave a => f.settleWith (f.leave a) fun f => (f, .done)
  | .sendFrom a m => f.settleWith (f.sendFrom a m) fun (f, r) => (f, .receipt r)
  | .send e m => let (f, r) := f.send e m; (f, .receipt r)
  | .registerEndpoint a endpoint =>
    let f := f.registerEndpoint a endpoint
    (f, .endpoints (f.member a).agent.endpoints)
  | .inject b m =>
    match f.inject b m with
    | (f, .ok _) => (f, .done)
    | (f, .error failure) => (f, .failed (.gateway failure))
  | .process e m => (f.process e m, .done)
  | .setClock e now => (f.setClock e now, .done)
  | .probe e => (f.probe e, .done)
  | .shutdown e => (f.shutdown e, .done)
  | .drop e => (f.dropEngine e, .done)
  | .listen e name => (f.listen e name, .done)
  | .unlisten e name => (f.unlisten e name, .done)
  | .setFailing g failing => (f.setFailing g failing, .done)
  | .setAnswer g answer => (f.setAnswer g answer, .done)
  | .close g => let (f, closed) := f.closeGateway g; (f, .flag closed)
  | .contact e identity =>
    let directory := (f.engine e).directory
    (f, .contact ((directory.remote? identity).map directory.contact))
  | .describe e =>
    let engine := f.engine e
    (f, .description engine (engine.gateways.map fun g => (f.gateway g).name) f.members)
  | .join _ _ _ | .rest _ => (f, .done)

def start (f : Fabric) (t : ThreadId) : Command → Fabric × Progress
  | .join a e cutoff => f.startJoin t a e cutoff
  | .rest millis => f.resume t (.rest (f.now + millis))
  | c => let (f, outcome) := f.carryOut c; (f, .over outcome)

end Fabric

end Overlay
