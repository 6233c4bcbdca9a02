import Overlay.Fabric.Basic

/-!
# Traffic

How messages travel. To send one is to hand it to gateways one after the other; what a bus takes is
received at once by the engines that hear it; an engine that receives a message may hand it to
responders, and they answer by sending messages in turn. So sending and receiving are nested, and
they are written here with what happens on reception as a parameter.

The nesting ends. A message that is sent because another one has been received is of a lower kind
than that one: pings bring about pongs, pongs bring about discoveries, discoveries bring about
announcements, and these bring about nothing. So four levels of reception are all there is.
-/

namespace Overlay

/-- What it does to the fabric when an engine receives a message. -/
abbrev Reception := Fabric → EngineId → Message → Fabric

namespace Fabric

/-! ## Sending -/

def receiveAll (receive : Reception) (f : Fabric) (deliveries : List (EngineId × Message)) :
    Fabric :=
  deliveries.foldl (fun f d => receive f d.1 d.2) f

/-- Hands a message to a gateway (`Gateway::send`). -/
def transmit (receive : Reception) (f : Fabric) (g : GatewayId) (m : Message) :
    Fabric × Except GatewayFailure DeliveryStatus :=
  match (f.gateway g).conduit with
  | .socket b p =>
    let (bus, transfer) := (f.bus b).send p m
    ((f.setBus b bus).receiveAll receive transfer.deliveries, transfer.outcome)
  | .sink answer sent =>
    (f.setConduit g (.sink answer (m :: sent)),
      match answer with
      | some status => .ok status
      | none => .error (.other "send failed"))

/-- What is known about a message after a gateway has taken it or not: a failure is no more than a
status. -/
def statusAfter : Except GatewayFailure DeliveryStatus → DeliveryStatus
  | .ok status => status
  | .error _ => .failed

/-- Hands a message to gateways in turn, and collects their receipts. -/
def transmitAll (receive : Reception) (f : Fabric) (m : Message) :
    List GatewayId → Fabric × List (Receipt DeliveryStatus)
  | [] => (f, [])
  | g :: rest =>
    let (f, outcome) := f.transmit receive g m
    let receipt := .gate m.uuid (f.gateway g).name (statusAfter outcome)
    let (f, receipts) := f.transmitAll receive m rest
    (f, receipt :: receipts)

/-- Sends a message through all gateways of an engine (`Cloud::send`). -/
def sendBy (receive : Reception) (f : Fabric) (e : EngineId) (m : Message) :
    Fabric × Receipt DeliveryStatus :=
  let (f, receipts) := f.transmitAll receive m (f.engine e).gateways
  (f, .joint m.uuid receipts)

/-! ## Listeners -/

/-- An agent answers a message, through the engine to which it is attached; if it is attached to
none by now, the answer is lost (`Responder::on_message`). -/
def answerBy (receive : Reception) (f : Fabric) (a : AgentId) (cloud : Identity) (m : Message) :
    Fabric :=
  let (uuid, f) := f.fresh
  match (f.member a).agent.reply? cloud uuid m, (f.member a).standing with
  | some reply, .joined e _ => (f.sendBy receive e reply).1
  | _, _ => f

def callHearer (receive : Reception) (m : Message) (f : Fabric) : Hearer → Fabric
  | .recorder name => { f with heard := (name, m) :: f.heard }
  | .responder a cloud => f.answerBy receive a cloud m

/-- A message is delivered to listeners, one after the other (`ListenerSet::deliver`). -/
def deliver (receive : Reception) (f : Fabric) (m : Message) (audience : List Hearer) : Fabric :=
  audience.foldl (callHearer receive m) f

/-- A message goes to the listeners of an engine, at once or by way of its worker
(`Multicaster::dispatch`). -/
def dispatchBy (receive : Reception) (f : Fabric) (e : EngineId) (m : Message) : Fabric :=
  let (fanout, audience) := (f.engine e).fanout.dispatch m
  let f := f.setFanout e fanout
  let f := match fanout.mode with
    | .inline => f
    | .worker => f.wake (.worker e)
  f.deliver receive m audience

/-! ## Receiving -/

/-- A message confirms what it confirms, whatever else becomes of it (`JoinSynchronizer::process`).
-/
def inspect (f : Fabric) (e : EngineId) (m : Message) : Fabric :=
  let b := (f.engine e).board
  let (criterion, board) := f.board b
  let (board, released) := board.receive criterion m
  (f.setBoard b board).releaseThreads released

/-- What follows from a message that is meant for the process of an engine, at a time
(`Cloud::classify`). -/
def react (receive : Reception) (f : Fabric) (e : EngineId) (m : Message) (now : Nat) : Fabric :=
  match (f.engine e).reaction m with
  | .nothing => f
  | .membership change => f.setEngine e ((f.engine e).changed m.sender change now)
  | .enquiry =>
    let (uuid, f) := f.fresh
    (f.sendBy receive e (.discovery uuid (f.engine e).identity m.sender)).1
  | .dispatch => f.dispatchBy receive e m

/-- An engine processes a message (`Cloud::process`). The time is read once, before anything follows
from the message, and the sender is touched afterwards. -/
def processBy (receive : Reception) : Reception := fun f e m =>
  let f := f.inspect e m
  let now := (f.engine e).clock
  let f := if (f.engine e).admits m then f.react receive e m now else f
  f.setEngine e ((f.engine e).touched m.sender now)

/-- An engine receives a message from a gateway, if it still takes any (`Inbound::on_message`). -/
def receiveBy (receive : Reception) : Reception := fun f e m =>
  if (f.engine e).present then f.processBy receive e m else f

/-- Reception of a number of levels, with something else below them. -/
def reception (below : Reception) : Nat → Reception
  | 0 => below
  | depth + 1 => receiveBy (reception below depth)

/-- How many levels there are: ping, pong, discovery, announcement. -/
def levels : Nat := 4

/-- An engine receives a message from a gateway. Nothing gets below the levels, so it does not
matter what is there. -/
def receive : Reception := reception (fun f _ _ => f) levels

def process : Reception := processBy receive

def send (f : Fabric) (e : EngineId) (m : Message) : Fabric × Receipt DeliveryStatus :=
  f.sendBy receive e m

def dispatch (f : Fabric) (e : EngineId) (m : Message) : Fabric :=
  f.dispatchBy receive e m

def inject (f : Fabric) (b : BusId) (m : Message) : Fabric × Except GatewayFailure DeliveryStatus :=
  let transfer := (f.bus b).inject m
  (f.receiveAll receive transfer.deliveries, transfer.outcome)

/-- The worker of an engine delivers the oldest message that is queued, and goes on with the next
one before any other task. -/
def work (f : Fabric) (e : EngineId) : Fabric :=
  match (f.engine e).fanout.take? with
  | none => f
  | some (m, audience, fanout) =>
    let f := (f.setFanout e fanout).deliver receive m audience
    if (f.engine e).fanout.queue.isEmpty then f else { f with ready := .worker e :: f.ready }

end Fabric

end Overlay
