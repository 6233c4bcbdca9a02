import Overlay.Fabric.Liveness

/-!
# The life of engines and gateways

An engine is made with its gateways and listens to them from then on; its liveness passes begin. To
shut it down ends the passes, closes the queue of its worker and its gateways and makes it forget
everybody. An engine that is dropped no longer takes what its gateways bring, but leaves them as
they are.
-/

namespace Overlay

namespace Fabric

/-- An engine hears what comes through a gateway (`Inbound`). -/
def listenAt (e : EngineId) (f : Fabric) (g : GatewayId) : Fabric :=
  match (f.gateway g).conduit with
  | .socket b p => f.setBus b ((f.bus b).listen p e)
  | .sink _ _ => f

/-- One more engine (`Cloud::with_parts`). -/
def addEngine (f : Fabric) (identity : Identity) (settings : Settings) (gateways : List GatewayId)
    (board : BoardId) (clock : Nat) : Fabric :=
  let e := f.engines.length
  let engine : Engine :=
    ⟨identity, settings, gateways, board, .empty, .empty settings.dispatch, clock, none, true⟩
  let f := gateways.foldl (listenAt e) { f with engines := f.engines ++ [engine] }
  f.schedulePass e (f.now * nanosPerTick + settings.probePeriod.nanos)

def setClock (f : Fabric) (e : EngineId) (now : Nat) : Fabric :=
  f.setEngine e { f.engine e with clock := now }

/-- A recorder listens to an engine (`Cloud::add_listener`). An earlier one of the same name stops
after this one has begun. -/
def listen (f : Fabric) (e : EngineId) (name : String) : Fabric :=
  let (fanout, s) := (f.engine e).fanout.subscribe (.recorder name)
  f.setFanout e { fanout with
    listeners := fanout.listeners.filter fun l => l.2 ≠ .recorder name || l.1 = s }

/-- A recorder listens no longer (`Cloud::remove_listener`). -/
def unlisten (f : Fabric) (e : EngineId) (name : String) : Fabric :=
  let fanout := (f.engine e).fanout
  f.setFanout e { fanout with
    listeners := fanout.listeners.filter fun l => l.2 ≠ .recorder name }

def registerEndpoint (f : Fabric) (a : AgentId) (endpoint : Endpoint) : Fabric :=
  f.setAgent a ((f.member a).agent.withEndpoint endpoint)

def setFailing (f : Fabric) (g : GatewayId) (failing : Bool) : Fabric :=
  match (f.gateway g).conduit with
  | .socket b p => f.setBus b ((f.bus b).setFailing p failing)
  | .sink _ _ => f

def setAnswer (f : Fabric) (g : GatewayId) (answer : Option DeliveryStatus) : Fabric :=
  match (f.gateway g).conduit with
  | .socket _ _ => f
  | .sink _ sent => f.setConduit g (.sink answer sent)

/-- Closes a gateway; one that refuses to send refuses that too if nobody is behind it. -/
def closeGateway (f : Fabric) (g : GatewayId) : Fabric × Bool :=
  match (f.gateway g).conduit with
  | .socket b p => (f.setBus b ((f.bus b).close p), true)
  | .sink answer _ => (f, answer.isSome)

/-- The tasks of an engine end: there are no more passes, and what its worker has in its queue is
all that it will get (`Cloud::stop_tasks`). -/
def stopTasks (f : Fabric) (e : EngineId) : Fabric :=
  let engine := f.engine e
  (f.setEngine e { engine with nextPass := none, fanout := engine.fanout.stop }).clearTimers
    (.liveness e)

/-- Shuts an engine down (`Cloud::shutdown`). -/
def shutdown (f : Fabric) (e : EngineId) : Fabric :=
  let f := f.stopTasks e
  let f := (f.engine e).gateways.foldl (fun f g => (f.closeGateway g).1) f
  f.setDirectory e (f.engine e).directory.clear

def dropEngine (f : Fabric) (e : EngineId) : Fabric :=
  let f := f.stopTasks e
  f.setEngine e { f.engine e with present := false }

/-! ## What has happened -/

def sunk (f : Fabric) (g : GatewayId) : List Message :=
  match (f.gateway g).conduit with
  | .socket _ _ => []
  | .sink _ sent => sent.reverse

def clearRecords (f : Fabric) : Fabric :=
  { f with
    buses := f.buses.map Bus.clearLog
    gateways := f.gateways.map fun g =>
      match g.conduit with
      | .socket _ _ => g
      | .sink answer _ => { g with conduit := .sink answer [] }
    heard := [] }

end Fabric

end Overlay
