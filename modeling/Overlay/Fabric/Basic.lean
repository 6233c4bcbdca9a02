import Overlay.Agent
import Overlay.Bus
import Overlay.Confirmation.Board
import Overlay.Delivery.Receipt
import Overlay.Engine

/-!
# The fabric

Everything that exists at a moment: buses and the gateways on them, engines and the agents of their
processes, the sessions in which joins wait, and the tasks that have something to do. All of it is
named by numbers, so that a part of the fabric can speak of another one that speaks of it.

Time is common to all and counts milliseconds. The clocks of the engines are no part of it: each
shows what it has been set to.
-/

namespace Overlay

abbrev EngineId := Nat

abbrev BusId := Nat

abbrev ThreadId := Nat

/-- What is behind a gateway. -/
inductive Conduit where
  /-- A socket of a bus. -/
  | socket (bus : BusId) (socket : SocketId)
  /-- Nobody: what is sent is kept, the latest first, and answered with one status, or refused. -/
  | sink (answer : Option DeliveryStatus) (sent : List Message)

/-- A way out of a process. -/
structure Gateway where
  name : String
  conduit : Conduit

/-- How an agent stands to the clouds (`State`). -/
inductive Standing where
  | detached
  | joining (engine : EngineId)
  /-- With the subscription of its responder. -/
  | joined (engine : EngineId) (responder : SubscriptionId)
deriving DecidableEq, Repr

structure Member where
  agent : Agent
  standing : Standing

/-- Something that is done without a break until it has to wait. -/
inductive Task where
  /-- Delivers what an engine has queued. -/
  | worker (engine : EngineId)
  /-- Makes an engine's liveness pass. -/
  | liveness (engine : EngineId)
  /-- Goes on with a thread. -/
  | thread (thread : ThreadId)
deriving DecidableEq, Repr

/-- Everything that exists. -/
structure Fabric where
  /-- The common time. -/
  now : Nat
  /-- The next identifier to be given to a message. -/
  supply : Nat
  buses : List (Bus EngineId)
  gateways : List Gateway
  /-- Where joins wait, with what confirms them. -/
  boards : List (Criterion × Board ThreadId)
  engines : List Engine
  members : List Member
  /-- What recorders have noted, the latest first. -/
  heard : List (String × Message)
  /-- The tasks that can go on, in the order in which they became ready. -/
  ready : List Task
  /-- The tasks that will become ready at a time, in the order in which that was settled. -/
  timers : List (Nat × Task)
  /-- The threads whose waits are over, and not yet noticed. -/
  confirmed : List ThreadId

instance : Inhabited Gateway := ⟨⟨"", .sink none []⟩⟩

instance : Inhabited Member := ⟨⟨default, .detached⟩⟩

namespace Standing

/-- The engine to which an agent is attached, or about to be. -/
def engine? : Standing → Option EngineId
  | .detached => none
  | .joining e | .joined e _ => some e

def isJoined : Standing → Bool
  | .joined _ _ => true
  | _ => false

end Standing

namespace Fabric

/-- Nothing exists, and the next identifier has the given number. -/
def empty (supply : Nat) : Fabric :=
  ⟨0, supply, [], [], [], [], [], [], [], [], []⟩

/-! ## Parts -/

def bus (f : Fabric) (b : BusId) : Bus EngineId :=
  f.buses.getD b default

def gateway (f : Fabric) (g : GatewayId) : Gateway :=
  f.gateways.getD g default

def board (f : Fabric) (b : BoardId) : Criterion × Board ThreadId :=
  f.boards.getD b (.never, .empty)

def engine (f : Fabric) (e : EngineId) : Engine :=
  f.engines.getD e default

def member (f : Fabric) (a : AgentId) : Member :=
  f.members.getD a default

def setBus (f : Fabric) (b : BusId) (bus : Bus EngineId) : Fabric :=
  { f with buses := f.buses.set b bus }

def setConduit (f : Fabric) (g : GatewayId) (conduit : Conduit) : Fabric :=
  { f with gateways := f.gateways.modify g fun old => { old with conduit := conduit } }

def setBoard (f : Fabric) (b : BoardId) (board : Board ThreadId) : Fabric :=
  { f with boards := f.boards.modify b fun old => (old.1, board) }

def setEngine (f : Fabric) (e : EngineId) (engine : Engine) : Fabric :=
  { f with engines := f.engines.set e engine }

def setDirectory (f : Fabric) (e : EngineId) (directory : Directory) : Fabric :=
  f.setEngine e { f.engine e with directory := directory }

def setFanout (f : Fabric) (e : EngineId) (fanout : Fanout Hearer) : Fabric :=
  f.setEngine e { f.engine e with fanout := fanout }

def setAgent (f : Fabric) (a : AgentId) (agent : Agent) : Fabric :=
  { f with members := f.members.modify a fun old => { old with agent := agent } }

def setStanding (f : Fabric) (a : AgentId) (standing : Standing) : Fabric :=
  { f with members := f.members.modify a fun old => { old with standing := standing } }

theorem engine_setEngine_self {f : Fabric} {e : EngineId} (g : Engine) (h : e < f.engines.length) :
    (f.setEngine e g).engine e = g := by
  simp [setEngine, engine, List.getD, h]

theorem engine_setEngine_ne {f : Fabric} {d e : EngineId} (g : Engine) (h : d ≠ e) :
    (f.setEngine e g).engine d = f.engine d := by
  simp [setEngine, engine, List.getD, h.symm]

theorem bus_setBus_self {f : Fabric} {b : BusId} (c : Bus EngineId) (h : b < f.buses.length) :
    (f.setBus b c).bus b = c := by
  simp [setBus, bus, List.getD, h]

theorem bus_setBus_ne {f : Fabric} {a b : BusId} (c : Bus EngineId) (h : a ≠ b) :
    (f.setBus b c).bus a = f.bus a := by
  simp [setBus, bus, List.getD, h.symm]

theorem board_setBoard_self {f : Fabric} {b : BoardId} (c : Board ThreadId)
    (h : b < f.boards.length) : (f.setBoard b c).board b = ((f.board b).1, c) := by
  simp [setBoard, board, List.getD, h]

theorem standing_setStanding_self {f : Fabric} {a : AgentId} (s : Standing)
    (h : a < f.members.length) : ((f.setStanding a s).member a).standing = s := by
  simp [setStanding, member, List.getD, h]

theorem member_setStanding_ne {f : Fabric} {a b : AgentId} (s : Standing) (h : b ≠ a) :
    (f.setStanding a s).member b = f.member b := by
  simp [setStanding, member, List.getD, h.symm]

/-! ## Identifiers, tasks and time -/

def fresh (f : Fabric) : Uuid × Fabric :=
  (.ofNat f.supply, { f with supply := f.supply + 1 })

/-- A task can go on, if it could not already. -/
def wake (f : Fabric) (t : Task) : Fabric :=
  if f.ready.contains t then f else { f with ready := f.ready ++ [t] }

/-- Tasks can go on before all others. -/
def wakeFirst (f : Fabric) (ts : List Task) : Fabric :=
  { f with ready := ts ++ f.ready.filter fun t => !ts.contains t }

def setTimer (f : Fabric) (time : Nat) (t : Task) : Fabric :=
  { f with timers := f.timers ++ [(time, t)] }

def clearTimers (f : Fabric) (t : Task) : Fabric :=
  { f with timers := f.timers.filter (·.2 ≠ t) }

/-- The waits of threads are over. -/
def releaseThreads (f : Fabric) (threads : List ThreadId) : Fabric :=
  threads.foldl (fun f t => { f with confirmed := t :: f.confirmed }.wake (.thread t)) f

/-! ## Building -/

def addBus (f : Fabric) : Fabric :=
  { f with buses := f.buses ++ [.empty Bus.standardLimit] }

/-- One more gateway, on a bus. -/
def addSocket (f : Fabric) (name : String) (b : BusId) : Fabric :=
  let (bus, p) := (f.bus b).attach name
  let f := f.setBus b bus
  { f with gateways := f.gateways ++ [⟨name, .socket b p⟩] }

/-- One more gateway, with nobody behind it. -/
def addSink (f : Fabric) (name : String) (answer : Option DeliveryStatus) : Fabric :=
  { f with gateways := f.gateways ++ [⟨name, .sink answer []⟩] }

def addBoard (f : Fabric) (criterion : Criterion) : Fabric :=
  { f with boards := f.boards ++ [(criterion, .empty)] }

def addAgent (f : Fabric) (a : Agent) : Fabric :=
  { f with members := f.members ++ [⟨a, .detached⟩] }

end Fabric

end Overlay
