import Overlay.Proofs.Traffic
import Overlay.Proofs.Wire.Message

/-!
# Traffic as a list of errands

Sending and receiving are nested, and the nesting is cut off below the fourth level. Here they are
written without levels. What is still to be done is a list of errands, and a step takes the first
one and puts in its place what that errand comes down to: to send is to hand to gateways, to hand to
a gateway is to let engines receive, to receive is to process and to touch the sender afterwards.
Nothing bounds the list or the number of steps.

Every errand carries the messages in whose handling it came up, the latest first: a message that is
sent while another one is being handled has that one as its first cause. What is sent is noted with
its causes.

A cascade that begins with an errand comes to the fabric that the nested definitions say, whatever
else is on the list behind it (`does_receive`, `does_send`).
-/

namespace Overlay

/-! ## The order of kinds -/

/-- The kinds that bring about messages or are brought about by them, in falling order: ping, pong,
discovery, announcement. No other kind has a rank. -/
def MessageKind.rank : MessageKind → Nat
  | .ping => 4
  | .pong => 3
  | .discovery => 2
  | .presence => 1
  | _ => 0

/-- A responder answers pings by pongs and discoveries by announcements. -/
theorem Agent.reply?_eq_some {a : Agent} {cloud : Identity} {uuid : Uuid} {m reply : Message}
    (h : a.reply? cloud uuid m = some reply) :
    (m.kind = .discovery ∧ reply = .presence uuid a.identity m.sender a.endpoints) ∨
      m.kind = .ping ∧ reply = .pong uuid a.identity m.sender := by
  unfold Agent.reply? at h
  split at h
  · contradiction
  · split at h
    · next hkind => exact .inl ⟨hkind, (Option.some.inj h).symm⟩
    · next hkind => exact .inr ⟨hkind, (Option.some.inj h).symm⟩
    · contradiction

namespace Message

/-- A message of a kind in the order, and lower than the kind of another one. -/
def Below (m cause : Message) : Prop := 0 < m.kind.rank ∧ m.kind.rank < cause.kind.rank

instance (m cause : Message) : Decidable (m.Below cause) := inferInstanceAs (Decidable (_ ∧ _))

/-- What is sent by itself while another message is being handled. -/
structure Follows (m cause : Message) : Prop where
  below : m.Below cause
  carried : Bus.carried m = .ok m

theorem rank_le (m : Message) : m.kind.rank ≤ 4 := by
  cases m.kind <;> simp [MessageKind.rank]

/-- An answer is of a lower kind than what it answers. -/
theorem follows_reply {a : Agent} {cloud : Identity} {uuid : Uuid} {m reply : Message}
    (h : a.reply? cloud uuid m = some reply) : reply.Follows m := by
  rcases Agent.reply?_eq_some h with ⟨hkind, rfl⟩ | ⟨hkind, rfl⟩
  case inl =>
    constructor
    case below => simp [Below, hkind, presence, withPayload, plain, MessageKind.rank]
    case carried => exact Bus.carried_of_not_app (by simp [presence, withPayload, Payload.arrival])
  case inr =>
    constructor
    case below => simp [Below, hkind, pong, plain, MessageKind.rank]
    case carried => exact Bus.carried_of_not_app (by simp [pong, plain])

/-- An engine that reacts to a message by a discovery has got a pong. -/
theorem follows_enquiry {x : Engine} {m : Message} (h : x.reaction m = .enquiry) (uuid : Uuid)
    (i j : Identity) : (discovery uuid i j).Follows m := by
  have hkind : m.kind = .pong := by
    unfold Engine.reaction at h
    split at h
    · split at h <;> contradiction
    · assumption
    · contradiction
  constructor
  case below => simp [Below, hkind, discovery, plain, MessageKind.rank]
  case carried => exact Bus.carried_of_not_app (by simp [discovery, plain])

end Message

/-! ## Errands -/

/-- Something that happens without a break. -/
inductive Chore where
  /-- An engine sends a message. -/
  | send (engine : EngineId) (message : Message)
  /-- A gateway is handed a message. -/
  | hand (gateway : GatewayId) (message : Message)
  /-- A gateway brings an engine a message. -/
  | receive (engine : EngineId) (message : Message)
  /-- An engine looks at a message. -/
  | process (engine : EngineId) (message : Message)
  /-- A listener gets a message. -/
  | call (listener : Hearer) (message : Message)
  /-- An engine has heard of somebody at a time. -/
  | touch (engine : EngineId) (sender : Identity) (now : Nat)

/-- A chore, and the messages in whose handling it came up, the latest first. -/
structure Errand where
  chore : Chore
  causes : List Message

/-- A message that was sent, and the messages in whose handling that was done, the latest first. -/
structure Sending where
  message : Message
  causes : List Message

/-- A fabric, what is to be done next in it, and what was sent so far, the latest first. -/
structure Cascade where
  fabric : Fabric
  todo : List Errand
  sent : List Sending

namespace Errand

def sends : Errand → List Sending
  | ⟨.send _ m, causes⟩ => [⟨m, causes⟩]
  | _ => []

end Errand

namespace Fabric

/-- A responder looks at a message, and what it has to do then. -/
def answerErrand (f : Fabric) (a : AgentId) (cloud : Identity) (m : Message)
    (causes : List Message) : Fabric × List Errand :=
  let (uuid, f) := f.fresh
  match (f.member a).agent.reply? cloud uuid m, (f.member a).standing with
  | some reply, .joined e _ => (f, [⟨.send e reply, m :: causes⟩])
  | _, _ => (f, [])

/-- A message goes to the listeners of an engine, and who is to be called now. -/
def dispatchErrand (f : Fabric) (e : EngineId) (m : Message) (causes : List Message) :
    Fabric × List Errand :=
  let (fanout, audience) := (f.engine e).fanout.dispatch m
  let f := f.setFanout e fanout
  let f := match fanout.mode with
    | .inline => f
    | .worker => f.wake (.worker e)
  (f, audience.map fun l => ⟨.call l m, causes⟩)

/-- What follows from a message that is meant for the process of an engine. -/
def reactErrand (f : Fabric) (e : EngineId) (m : Message) (now : Nat) (causes : List Message) :
    Fabric × List Errand :=
  match (f.engine e).reaction m with
  | .nothing => (f, [])
  | .membership change => (f.setEngine e ((f.engine e).changed m.sender change now), [])
  | .enquiry =>
    let (uuid, f) := f.fresh
    (f, [⟨.send e (.discovery uuid (f.engine e).identity m.sender), m :: causes⟩])
  | .dispatch => f.dispatchErrand e m causes

/-- What an errand does to the fabric, and what it comes down to. -/
def perform (f : Fabric) : Errand → Fabric × List Errand
  | ⟨.send e m, causes⟩ => (f, (f.engine e).gateways.map fun g => ⟨.hand g m, causes⟩)
  | ⟨.hand g m, causes⟩ =>
    match (f.gateway g).conduit with
    | .socket b p =>
      let (bus, transfer) := (f.bus b).send p m
      (f.setBus b bus, transfer.deliveries.map fun d => ⟨.receive d.1 d.2, causes⟩)
    | .sink answer sent => (f.setConduit g (.sink answer (m :: sent)), [])
  | ⟨.receive e m, causes⟩ => (f, if (f.engine e).present then [⟨.process e m, causes⟩] else [])
  | ⟨.process e m, causes⟩ =>
    let f := f.inspect e m
    let now := (f.engine e).clock
    let (f, todo) := if (f.engine e).admits m then f.reactErrand e m now causes else (f, [])
    (f, todo ++ [⟨.touch e m.sender now, causes⟩])
  | ⟨.call (.recorder name) m, _⟩ => ({ f with heard := (name, m) :: f.heard }, [])
  | ⟨.call (.responder a cloud) m, causes⟩ => f.answerErrand a cloud m causes
  | ⟨.touch e sender now, _⟩ => (f.setEngine e ((f.engine e).touched sender now), [])

end Fabric

/-! ## Runs -/

namespace Cascade

/-- The first errand is done, and what it comes down to takes its place. -/
def step (c : Cascade) : Cascade :=
  match c.todo with
  | [] => c
  | t :: rest =>
    let (f, todo) := c.fabric.perform t
    ⟨f, todo ++ rest, t.sends ++ c.sent⟩

def run (c : Cascade) : Nat → Cascade
  | 0 => c
  | n + 1 => c.step.run n

theorem run_add (c : Cascade) (n k : Nat) : c.run (n + k) = (c.run n).run k := by
  induction n generalizing c with
  | zero => simp [run]
  | succ n ih =>
    rw [Nat.succ_add]
    exact ih c.step

end Cascade

namespace Fabric

variable {f g h : Fabric} {e : EngineId} {m : Message} {causes : List Message} {t : Errand}
  {ts us : List Errand} {receive : Reception}

/-- Errands take one fabric to another one, whatever is to be done after them. -/
def Does (f : Fabric) (ts : List Errand) (g : Fabric) : Prop :=
  ∃ n sent, ∀ rest past, (Cascade.mk f (ts ++ rest) past).run n = ⟨g, rest, sent ++ past⟩

namespace Does

theorem nil (f : Fabric) : f.Does [] f := ⟨0, [], fun _ _ => rfl⟩

theorem append (hfg : f.Does ts g) (hgh : g.Does us h) : f.Does (ts ++ us) h := by
  obtain ⟨n, sent, hn⟩ := hfg
  obtain ⟨k, later, hk⟩ := hgh
  refine ⟨n + k, later ++ sent, fun rest past => ?_⟩
  rw [Cascade.run_add, List.append_assoc, hn, hk, List.append_assoc]

/-- An errand is done when what it comes down to is. -/
theorem perform (hdone : (f.perform t).1.Does (f.perform t).2 g) : f.Does [t] g := by
  obtain ⟨n, sent, hn⟩ := hdone
  refine ⟨n + 1, sent ++ t.sends, fun rest past => ?_⟩
  have hstep : (Cascade.mk f ([t] ++ rest) past).step =
      ⟨(f.perform t).1, (f.perform t).2 ++ rest, t.sends ++ past⟩ := rfl
  rw [Cascade.run, hstep, hn, List.append_assoc]

/-- One errand after the other, each of which does its part of a fold. -/
theorem fold {α : Type} (errand : α → Errand) (act : Fabric → α → Fabric) {as : List α}
    (heach : ∀ f : Fabric, ∀ a ∈ as, f.Does [errand a] (act f a)) (f : Fabric) :
    f.Does (as.map errand) (as.foldl act f) := by
  induction as generalizing f with
  | nil => exact .nil f
  | cons a as ih =>
    have hfirst := heach f a List.mem_cons_self
    exact hfirst.append (ih (fun f b hb => heach f b (List.mem_cons_of_mem _ hb)) (act f a))

end Does

/-! ## What the errands do

`receive` is what becomes of messages on the level below. It is assumed of the messages that can get
there that the errand to receive them does just that. -/

/-- A message is handed to a gateway. -/
theorem does_transmit
    (hreceive : ∀ n, Bus.carried m = .ok n →
      ∀ (f : Fabric) e, f.Does [⟨.receive e n, causes⟩] (receive f e n))
    (f : Fabric) (x : GatewayId) :
    f.Does [⟨.hand x m, causes⟩] (f.transmit receive x m).1 := by
  apply Does.perform
  unfold perform transmit
  cases hx : (f.gateway x).conduit with
  | sink answer sent => simpa [hx] using Does.nil _
  | socket b p =>
    simp only [hx]
    refine Does.fold (fun d : EngineId × Message => ⟨.receive d.1 d.2, causes⟩)
      (fun f d => receive f d.1 d.2) (fun f d hd => ?_) _
    exact hreceive d.2 (Closed.mem_send hd) f d.1

/-- A message is handed to one gateway after the other. -/
theorem does_transmitAll
    (hhand : ∀ (f : Fabric) x, f.Does [⟨.hand x m, causes⟩] (f.transmit receive x m).1) (f : Fabric)
    (xs : List GatewayId) :
    f.Does (xs.map fun x => ⟨.hand x m, causes⟩) (f.transmitAll receive m xs).1 := by
  induction xs generalizing f with
  | nil => exact .nil f
  | cons x xs ih => exact (hhand f x).append (ih _)

theorem does_sendBy
    (hreceive : ∀ n, Bus.carried m = .ok n →
      ∀ (f : Fabric) e, f.Does [⟨.receive e n, causes⟩] (receive f e n))
    (f : Fabric) (e : EngineId) : f.Does [⟨.send e m, causes⟩] (f.sendBy receive e m).1 :=
  .perform (does_transmitAll (does_transmit hreceive) f _)

section Handling

variable (hsend : ∀ {r : Message}, r.Follows m →
  ∀ (f : Fabric) e, f.Does [⟨.send e r, m :: causes⟩] (f.sendBy receive e r).1)

include hsend

/-- A listener gets a message. -/
theorem does_callHearer (f : Fabric) (l : Hearer) :
    f.Does [⟨.call l m, causes⟩] (callHearer receive m f l) := by
  apply Does.perform
  cases l with
  | recorder name => exact .nil _
  | responder a cloud =>
    simp only [perform, answerErrand, callHearer, answerBy]
    cases hreply : (f.fresh.2.member a).agent.reply? cloud f.fresh.1 m with
    | none => exact .nil _
    | some reply =>
      cases (f.fresh.2.member a).standing with
      | detached => exact .nil _
      | joining e => exact .nil _
      | joined e s => exact hsend (Message.follows_reply hreply) _ e

theorem does_dispatchBy (f : Fabric) (e : EngineId) :
    (f.dispatchErrand e m causes).1.Does (f.dispatchErrand e m causes).2
      (f.dispatchBy receive e m) :=
  Does.fold (fun l => ⟨.call l m, causes⟩) (callHearer receive m)
    (fun f l _ => does_callHearer hsend f l) _

theorem does_react (f : Fabric) (e : EngineId) (now : Nat) :
    (f.reactErrand e m now causes).1.Does (f.reactErrand e m now causes).2
      (f.react receive e m now) := by
  unfold reactErrand react
  cases hr : (f.engine e).reaction m with
  | nothing => exact .nil _
  | membership change => exact .nil _
  | enquiry => exact hsend (Message.follows_enquiry hr _ _ _) _ e
  | dispatch => exact does_dispatchBy hsend f e

/-- An engine looks at a message, and has heard of its sender afterwards. -/
theorem does_processBy (f : Fabric) (e : EngineId) :
    f.Does [⟨.process e m, causes⟩] (processBy receive f e m) := by
  apply Does.perform
  have htouch : ∀ g : Fabric, g.Does
      [⟨.touch e m.sender ((f.inspect e m).engine e).clock, causes⟩]
      (g.setEngine e ((g.engine e).touched m.sender ((f.inspect e m).engine e).clock)) :=
    fun g => .perform (.nil _)
  simp only [perform, processBy]
  by_cases hadm : ((f.inspect e m).engine e).admits m = true
  · simp only [hadm, if_true]
    exact (does_react hsend _ e _).append (htouch _)
  · simp only [hadm]
    exact htouch _

theorem does_receiveBy (f : Fabric) (e : EngineId) :
    f.Does [⟨.receive e m, causes⟩] (receiveBy receive f e m) := by
  apply Does.perform
  simp only [perform, receiveBy]
  split
  · exact does_processBy hsend f e
  · exact .nil f

end Handling

/-! ## The levels are enough -/

/-- A reception of as many levels as a message is high, and of one at least, does what it takes to
receive the message. -/
theorem does_reception (below : Reception) {depth : Nat} (hm : m.kind.rank ≤ depth)
    (hdepth : 0 < depth) (f : Fabric) (e : EngineId) (causes : List Message) :
    f.Does [⟨.receive e m, causes⟩] (reception below depth f e m) := by
  induction depth generalizing m f e causes with
  | zero => contradiction
  | succ depth ih =>
    refine does_receiveBy (fun {r} hr f e => does_sendBy (fun n hn f e => ?_) f e) f e
    obtain rfl : r = n := Except.ok.inj (hr.carried.symm.trans hn)
    have hbelow := hr.below
    simp only [Message.Below] at hbelow
    exact ih (by omega) (by omega) f e _

theorem does_receive (f : Fabric) (e : EngineId) (m : Message) (causes : List Message) :
    f.Does [⟨.receive e m, causes⟩] (f.receive e m) :=
  does_reception _ m.rank_le (by decide) f e causes

theorem does_send (f : Fabric) (e : EngineId) (m : Message) (causes : List Message) :
    f.Does [⟨.send e m, causes⟩] (f.send e m).1 :=
  does_sendBy (fun n _ f e => does_receive f e n causes) f e

theorem does_process (f : Fabric) (e : EngineId) (m : Message) (causes : List Message) :
    f.Does [⟨.process e m, causes⟩] (f.process e m) :=
  does_processBy (fun _ f e => does_send f e _ _) f e

theorem does_inject (f : Fabric) (b : BusId) (m : Message) (causes : List Message) :
    f.Does (((f.bus b).inject m).deliveries.map fun d => ⟨.receive d.1 d.2, causes⟩)
      (f.inject b m).1 :=
  Does.fold (fun d : EngineId × Message => ⟨.receive d.1 d.2, causes⟩) (fun f d => f.receive d.1 d.2)
    (fun f d _ => does_receive f d.1 d.2 causes) f

end Fabric

end Overlay
