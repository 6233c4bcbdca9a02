import Overlay.Delivery.Status
import Overlay.Failure
import Overlay.Wire.Decode
import Overlay.Wire.Encode

/-!
# The bus

A bus carries every message that is sent through one of its sockets to the listeners of all open
sockets, those of the sending socket included. On the way a message goes through the wire format, so
what the listeners get is what can be read of what was written. The bus logs what is sent, in the
order of sending, and keeps only the latest messages.

A socket that is closed hears nothing and sends nothing; one that is failing only refuses to send.
What a message becomes is worked out before any listener is called: the listeners get it afterwards,
one by one, and may send messages themselves.
-/

namespace Overlay

abbrev SocketId := Nat

/-- A place at which a bus is entered and left (`Port`). -/
structure Socket (ℓ : Type) where
  name : String
  listeners : List ℓ
  closed : Bool
  failing : Bool

namespace Socket

instance {ℓ : Type} : Inhabited (Socket ℓ) := ⟨⟨"", [], false, false⟩⟩

/-- Who hears a message at the socket (`Port::listeners`). -/
def audience {ℓ : Type} (p : Socket ℓ) : List ℓ :=
  if p.closed then [] else p.listeners

/-- Why the socket does not take a message, if it does not. -/
def refusal? {ℓ : Type} (p : Socket ℓ) (m : Message) : Option GatewayFailure :=
  if p.closed then some (.closed p.name)
  else if p.failing then some (.refused (p.name ++ " refused " ++ String.ofList m.uuid.hyphenated))
  else none

end Socket

/-- The sockets of a bus, and its log (`NetworkInner`). -/
structure Bus (ℓ : Type) where
  /-- By their numbers. -/
  sockets : List (Socket ℓ)
  /-- The latest messages that were sent, the oldest first. -/
  log : List Message
  /-- How many messages the log keeps. -/
  limit : Nat

/-- What a message becomes on its way: who gets what, and how the sending ends after that. -/
structure Transfer (ℓ : Type) where
  deliveries : List (ℓ × Message)
  outcome : Except GatewayFailure DeliveryStatus

namespace Bus

/-- A bus without sockets (`LoopbackNetwork::with_log_limit`). -/
def empty {ℓ : Type} (limit : Nat) : Bus ℓ :=
  ⟨[], [], limit⟩

instance {ℓ : Type} : Inhabited (Bus ℓ) := ⟨empty 0⟩

/-- How many messages a log keeps unless another number is asked for. -/
def standardLimit : Nat := 4096

def socket {ℓ : Type} (b : Bus ℓ) (p : SocketId) : Socket ℓ :=
  b.sockets.getD p default

def modify {ℓ : Type} (b : Bus ℓ) (p : SocketId) (f : Socket ℓ → Socket ℓ) : Bus ℓ :=
  { b with sockets := b.sockets.modify p f }

/-- One more socket, open and working, and its number (`LoopbackNetwork::gateway`). -/
def attach {ℓ : Type} (b : Bus ℓ) (name : String) : Bus ℓ × SocketId :=
  ({ b with sockets := b.sockets ++ [⟨name, [], false, false⟩] }, b.sockets.length)

/-- One more listener at a socket (`LoopbackGateway::add_listener`). -/
def listen {ℓ : Type} (b : Bus ℓ) (p : SocketId) (listener : ℓ) : Bus ℓ :=
  b.modify p fun q => { q with listeners := q.listeners ++ [listener] }

/-- Makes a socket refuse to send, or send again (`LoopbackGateway::set_failing`). -/
def setFailing {ℓ : Type} (b : Bus ℓ) (p : SocketId) (failing : Bool) : Bus ℓ :=
  b.modify p fun q => { q with failing := failing }

/-- Closes a socket for good (`LoopbackGateway::close`). -/
def close {ℓ : Type} (b : Bus ℓ) (p : SocketId) : Bus ℓ :=
  b.modify p fun q => { q with closed := true }

/-- Puts a message into the log, and drops the oldest if there are too many
(`NetworkInner::record`). -/
def record {ℓ : Type} (b : Bus ℓ) (m : Message) : Bus ℓ :=
  { b with log := (b.log ++ [m]).drop (b.log.length + 1 - b.limit) }

/-- Empties the log (`LoopbackNetwork::clear_sent`). -/
def clearLog {ℓ : Type} (b : Bus ℓ) : Bus ℓ :=
  { b with log := [] }

/-- Who hears a message: the listeners of the open sockets, socket by socket. -/
def audience {ℓ : Type} (b : Bus ℓ) : List ℓ :=
  b.sockets.flatMap Socket.audience

/-- What can be read of a message after it has been written. -/
def carried (m : Message) : Except Wire.Fault Message :=
  Message.decode m.encode

/-- Carries a message to the audience (`NetworkInner::deliver`). It is read only where somebody
hears it. -/
def carry {ℓ : Type} (b : Bus ℓ) (m : Message) (status : DeliveryStatus) : Transfer ℓ :=
  match b.audience with
  | [] => ⟨[], .ok status⟩
  | audience =>
    match carried m with
    | .ok n => ⟨audience.map fun l => (l, n), .ok status⟩
    | .error fault => ⟨[], .error (.undecodable fault)⟩

/-- The status of a message that has been sent: delivered if that was asked for. -/
def statusOf (m : Message) : DeliveryStatus :=
  if m.reliable then .delivered else .unknown

/-- Sends a message through a socket (`LoopbackGateway::send`). It is in the log before anybody
hears it. -/
def send {ℓ : Type} (b : Bus ℓ) (p : SocketId) (m : Message) : Bus ℓ × Transfer ℓ :=
  match (b.socket p).refusal? m with
  | some failure => (b, ⟨[], .error failure⟩)
  | none => (b.record m, b.carry m (statusOf m))

/-- Carries a message that comes from outside and is not logged (`LoopbackNetwork::inject`). -/
def inject {ℓ : Type} (b : Bus ℓ) (m : Message) : Transfer ℓ :=
  b.carry m .unknown

end Bus

end Overlay
