import Overlay.Fabric.Traffic
import Overlay.Proofs.Confirmation.Board

/-!
# What traffic keeps

Sending and receiving are nested, so a statement about traffic is proved once for each level. What
the levels have in common is here. `Aside` relates two fabrics that differ only in what no engine
decides by: logs, identifiers, confirmations. `Closed` collects what a relation between the fabric
before and after must satisfy to be kept by everything that happens between two receptions, for
messages of a certain sort; then whatever is kept by a reception is kept by sending, answering and
delivering.
-/

namespace Overlay

/-! ## Differences by which nobody decides -/

namespace Fabric

theorem length_setEngine {f : Fabric} {e : EngineId} (x : Engine) :
    (f.setEngine e x).engines.length = f.engines.length :=
  List.length_set

/-- To make an engine what it is already changes nothing. -/
theorem setEngine_engine {f : Fabric} (e : EngineId) : f.setEngine e (f.engine e) = f := by
  by_cases he : e < f.engines.length
  · simp [setEngine, engine, List.getD, he]
  · simp [setEngine, List.set_eq_of_length_le (Nat.le_of_not_lt he)]

/-- Two fabrics differ only in logs, identifiers, confirmations and what is ready. -/
structure Aside (f g : Fabric) : Prop where
  engines : g.engines = f.engines
  members : g.members = f.members
  conduit : ∀ {x b p}, (f.gateway x).conduit = .socket b p → (g.gateway x).conduit = .socket b p
  sockets : ∀ b, (g.bus b).sockets = (f.bus b).sockets
  boards : g.boards.length = f.boards.length
  criterion : ∀ b, (g.board b).1 = (f.board b).1
  board : ∀ b, (f.board b).2.Later (g.board b).2
  heard : g.heard = f.heard

variable {f g h : Fabric} {e : EngineId} {m : Message}

theorem Aside.refl (f : Fabric) : f.Aside f :=
  ⟨rfl, rfl, id, fun _ => rfl, rfl, fun _ => rfl, fun _ => .refl _, rfl⟩

theorem Aside.trans (hfg : f.Aside g) (hgh : g.Aside h) : f.Aside h where
  engines := hgh.engines.trans hfg.engines
  members := hgh.members.trans hfg.members
  conduit := fun hx => hgh.conduit (hfg.conduit hx)
  sockets := fun b => (hgh.sockets b).trans (hfg.sockets b)
  boards := hgh.boards.trans hfg.boards
  criterion := fun b => (hgh.criterion b).trans (hfg.criterion b)
  board := fun b => (hfg.board b).trans (hgh.board b)
  heard := hgh.heard.trans hfg.heard

/-- All that engines decide by is the same. -/
theorem Aside.of_eq (he : g.engines = f.engines) (hm : g.members = f.members)
    (hx : g.gateways = f.gateways) (hb : g.buses = f.buses) (hs : g.boards = f.boards)
    (hh : g.heard = f.heard) : f.Aside g := by
  constructor
  case engines => exact he
  case members => exact hm
  case conduit =>
    intro x b p h
    rwa [gateway, hx]
  case sockets =>
    intro b
    rw [bus, hb, bus]
  case boards => rw [hs]
  case criterion =>
    intro b
    rw [Fabric.board, hs, Fabric.board]
  case board =>
    intro b
    rw [Fabric.board, Fabric.board, hs]
    exact .refl _
  case heard => exact hh

theorem aside_fresh : f.Aside f.fresh.2 := .of_eq rfl rfl rfl rfl rfl rfl

theorem aside_wake (t : Task) : f.Aside (f.wake t) := by
  unfold wake
  split
  · exact .refl f
  · exact .of_eq rfl rfl rfl rfl rfl rfl

theorem aside_releaseThreads (ts : List ThreadId) : f.Aside (f.releaseThreads ts) := by
  unfold releaseThreads
  induction ts generalizing f with
  | nil => exact .refl f
  | cons t ts ih =>
    have hnote : f.Aside { f with confirmed := t :: f.confirmed } := .of_eq rfl rfl rfl rfl rfl rfl
    exact (hnote.trans (aside_wake _)).trans ih

/-- A bus that has only logged something. -/
theorem aside_setBus {b : BusId} {bus : Bus EngineId} (hb : bus.sockets = (f.bus b).sockets) :
    f.Aside (f.setBus b bus) := by
  constructor
  case engines => rfl
  case members => rfl
  case conduit => exact id
  case sockets =>
    intro c
    by_cases hc : c = b
    · subst hc
      by_cases hlt : c < f.buses.length
      · rw [bus_setBus_self _ hlt, hb]
      · simp [setBus, List.set_eq_of_length_le (Nat.le_of_not_lt hlt)]
    · rw [bus_setBus_ne _ hc]
  case boards => rfl
  case criterion => exact fun _ => rfl
  case board => exact fun _ => .refl _
  case heard => rfl

/-- A gateway with nobody behind it that keeps one message more. -/
theorem aside_sink {x : GatewayId} {answer answer' : Option DeliveryStatus}
    {sent sent' : List Message} (hx : (f.gateway x).conduit = .sink answer sent) :
    f.Aside (f.setConduit x (.sink answer' sent')) := by
  constructor
  case engines => rfl
  case members => rfl
  case conduit =>
    intro y b p hy
    have hne : y ≠ x := by
      rintro rfl
      rw [hx] at hy
      contradiction
    simpa [setConduit, gateway, List.getD, Ne.symm hne] using hy
  case sockets => exact fun _ => rfl
  case boards => rfl
  case criterion => exact fun _ => rfl
  case board => exact fun _ => .refl _
  case heard => rfl

theorem board_setBoard_ne {b c : BoardId} (board : Board ThreadId) (hne : c ≠ b) :
    (f.setBoard b board).board c = f.board c := by
  simp [setBoard, Fabric.board, List.getD, Ne.symm hne]

theorem aside_setBoard {b : BoardId} {board : Board ThreadId}
    (hb : (f.board b).2.Later board) : f.Aside (f.setBoard b board) := by
  have hboard : ∀ c, ((f.setBoard b board).board c).1 = (f.board c).1 ∧
      (f.board c).2.Later ((f.setBoard b board).board c).2 := by
    intro c
    by_cases hc : c = b
    · subst hc
      by_cases hlt : c < f.boards.length
      · rw [board_setBoard_self _ hlt]
        exact ⟨rfl, hb⟩
      · have hsame : f.setBoard c board = f := by
          simp [setBoard, List.modify_eq_self (Nat.le_of_not_lt hlt)]
        rw [hsame]
        exact ⟨rfl, .refl _⟩
    · rw [board_setBoard_ne _ hc]
      exact ⟨rfl, .refl _⟩
  exact ⟨rfl, rfl, id, fun _ => rfl, List.length_modify _ _ _, fun c => (hboard c).1,
    fun c => (hboard c).2, rfl⟩

theorem aside_inspect : f.Aside (f.inspect e m) :=
  (aside_setBoard (Board.later_receive _ m)).trans (aside_releaseThreads _)

/-! ## Relations that are kept -/

/-- What a relation must satisfy to be kept by what happens between receptions, where only messages
of a certain sort travel. -/
structure Closed (R : Fabric → Fabric → Prop) (P : Fabric → Message → Prop) : Prop where
  aside : ∀ {f g}, f.Aside g → R f g
  trans : ∀ {f g h}, R f g → R g h → R f h
  /-- The sort of a message does not change while it travels. -/
  stable : ∀ {f g m}, R f g → P f m → P g m
  carried : ∀ {f m n}, P f m → Bus.carried m = .ok n → P f n
  /-- Answers to messages of the sort are of the sort. -/
  answer : ∀ {f m a c uuid reply e s}, P f m → (f.member a).agent.reply? c uuid m = some reply →
    (f.member a).standing = .joined e s → P f reply
  /-- A recorder notes a message. -/
  note : ∀ {f m} (name : String), P f m → R f { f with heard := (name, m) :: f.heard }
  /-- A message is put into the queue of an engine. -/
  queue : ∀ {f m} (e : EngineId), P f m → R f (f.setFanout e ((f.engine e).fanout.dispatch m).1)

/-- What a relation must satisfy besides to be kept when an engine processes a message. -/
structure Processing (R : Fabric → Fabric → Prop) (P : Fabric → Message → Prop) : Prop where
  change : ∀ {f e m change now}, P f m → (f.engine e).admits m = true →
    (f.engine e).reaction m = .membership change →
    R f (f.setEngine e ((f.engine e).changed m.sender change now))
  enquiry : ∀ {f e m}, P f m → (f.engine e).reaction m = .enquiry →
    P f.fresh.2 (.discovery f.fresh.1 (f.engine e).identity m.sender)
  touch : ∀ {f e m now}, P f m → R f (f.setEngine e ((f.engine e).touched m.sender now))

/-- A reception keeps a relation, for messages of a certain sort. -/
def Keeps (R : Fabric → Fabric → Prop) (P : Fabric → Message → Prop) (receive : Reception) : Prop :=
  ∀ f e m, P f m → R f (receive f e m)

/-- What every reception of one level keeps if the level below does is kept by all. -/
theorem Keeps.reception {R : Fabric → Fabric → Prop} {P : Fabric → Message → Prop}
    {below : Reception} (hbelow : Keeps R P below)
    (hstep : ∀ receive, Keeps R P receive → Keeps R P (receiveBy receive)) (depth : Nat) :
    Keeps R P (reception below depth) := by
  induction depth with
  | zero => exact hbelow
  | succ depth ih => exact hstep _ ih

namespace Closed

variable {R : Fabric → Fabric → Prop} {P : Fabric → Message → Prop} {receive : Reception}

theorem refl (C : Closed R P) (f : Fabric) : R f f := C.aside (.refl f)

/-- A message that several engines receive. -/
theorem receiveAll (C : Closed R P) (hreceive : Keeps R P receive)
    {ds : List (EngineId × Message)} (hds : ∀ d ∈ ds, P f d.2) :
    R f (f.receiveAll receive ds) := by
  unfold Fabric.receiveAll
  induction ds generalizing f with
  | nil => exact C.refl f
  | cons d ds ih =>
    have hd : R f (receive f d.1 d.2) := hreceive f d.1 d.2 (hds d List.mem_cons_self)
    exact C.trans hd (ih fun c hc => C.stable hd (hds c (List.mem_cons_of_mem _ hc)))

theorem mem_carry {b : Bus EngineId} {status : DeliveryStatus} {d : EngineId × Message}
    (h : d ∈ (b.carry m status).deliveries) : Bus.carried m = .ok d.2 := by
  unfold Bus.carry at h
  split at h
  · exact absurd h List.not_mem_nil
  · split at h
    · next n hn =>
      obtain ⟨l, -, rfl⟩ := List.mem_map.1 h
      exact hn
    · exact absurd h List.not_mem_nil

theorem sockets_send {b : Bus EngineId} {p : SocketId} : (b.send p m).1.sockets = b.sockets := by
  unfold Bus.send
  split <;> rfl

theorem mem_send {b : Bus EngineId} {p : SocketId} {d : EngineId × Message}
    (h : d ∈ (b.send p m).2.deliveries) : Bus.carried m = .ok d.2 := by
  unfold Bus.send at h
  split at h
  · exact absurd h List.not_mem_nil
  · simp only at h
    exact mem_carry h

theorem transmit (C : Closed R P) (hreceive : Keeps R P receive)
    (hm : P f m) (x : GatewayId) : R f (f.transmit receive x m).1 := by
  unfold Fabric.transmit
  split
  · next b p _ =>
    have hbus : R f (f.setBus b ((f.bus b).send p m).1) := C.aside (aside_setBus sockets_send)
    refine C.trans hbus (C.receiveAll hreceive fun d hd => ?_)
    exact C.stable hbus (C.carried hm (mem_send hd))
  · next hx => exact C.aside (aside_sink hx)

theorem transmitAll (C : Closed R P) (hreceive : Keeps R P receive)
    (hm : P f m) (xs : List GatewayId) : R f (f.transmitAll receive m xs).1 := by
  induction xs generalizing f with
  | nil => exact C.refl f
  | cons x xs ih =>
    have hx := C.transmit hreceive hm x
    exact C.trans hx (ih (C.stable hx hm))

theorem sendBy (C : Closed R P) (hreceive : Keeps R P receive)
    (hm : P f m) (e : EngineId) : R f (f.sendBy receive e m).1 :=
  C.transmitAll hreceive hm _

theorem answerBy (C : Closed R P) (hreceive : Keeps R P receive)
    (hm : P f m) (a : AgentId) (cloud : Identity) : R f (f.answerBy receive a cloud m) := by
  have hfresh : R f f.fresh.2 := C.aside aside_fresh
  unfold Fabric.answerBy
  simp only
  split
  · next reply e s hreply hstanding =>
    have hm' := C.answer (C.stable hfresh hm) hreply hstanding
    exact C.trans hfresh (C.sendBy hreceive hm' e)
  · exact hfresh

theorem callHearer (C : Closed R P) (hreceive : Keeps R P receive)
    (hm : P f m) (l : Hearer) : R f (Fabric.callHearer receive m f l) := by
  cases l with
  | recorder name => exact C.note name hm
  | responder a cloud => exact C.answerBy hreceive hm a cloud

theorem deliver (C : Closed R P) (hreceive : Keeps R P receive)
    (hm : P f m) (audience : List Hearer) : R f (f.deliver receive m audience) := by
  unfold Fabric.deliver
  induction audience generalizing f with
  | nil => exact C.refl f
  | cons l audience ih =>
    have hl := C.callHearer hreceive hm l
    exact C.trans hl (ih (C.stable hl hm))

theorem dispatchBy (C : Closed R P) (hreceive : Keeps R P receive)
    (hm : P f m) (e : EngineId) : R f (f.dispatchBy receive e m) := by
  have hqueue := C.queue e hm
  unfold Fabric.dispatchBy
  generalize (f.engine e).fanout.dispatch m = d at hqueue ⊢
  obtain ⟨fanout, audience⟩ := d
  simp only at hqueue ⊢
  cases fanout.mode with
  | inline => exact C.trans hqueue (C.deliver hreceive (C.stable hqueue hm) audience)
  | worker =>
    have hwake := C.trans hqueue (C.aside (aside_wake (.worker e)))
    exact C.trans hwake (C.deliver hreceive (C.stable hwake hm) audience)

/-! ## What traffic reaches

If something, once it is so, stays so, it is enough to look at the engine or at the listener whom it
depends on, at whatever moment the message gets there. -/

/-- What comes about when one of several engines receives a message. -/
theorem receiveAll_reaches (C : Closed R P) (hreceive : Keeps R P receive) {Q : Fabric → Prop}
    (hstays : ∀ {f g}, R f g → Q f → Q g) {ds : List (EngineId × Message)} (hds : ∀ d ∈ ds, P f d.2)
    (hmem : (e, m) ∈ ds) (hnow : ∀ g, R f g → Q (receive g e m)) :
    Q (f.receiveAll receive ds) := by
  induction ds generalizing f with
  | nil => exact absurd hmem List.not_mem_nil
  | cons d ds ih =>
    have hd : R f (receive f d.1 d.2) := hreceive f d.1 d.2 (hds d List.mem_cons_self)
    have hrest : ∀ c ∈ ds, P (receive f d.1 d.2) c.2 :=
      fun c hc => C.stable hd (hds c (List.mem_cons_of_mem _ hc))
    rcases List.mem_cons.1 hmem with rfl | hmem
    · change Q ((receive f e m).receiveAll receive ds)
      exact hstays (C.receiveAll hreceive hrest) (hnow f (C.refl f))
    · exact ih hrest hmem fun g hg => hnow g (C.trans hd hg)

/-- What is sent through an open socket goes to all who hear the bus. -/
theorem deliveries_send {b : Bus EngineId} {p : SocketId} (hopen : (b.socket p).refusal? m = none)
    (hcarried : Bus.carried m = .ok m) :
    (b.send p m).2.deliveries = b.audience.map fun e => (e, m) := by
  simp only [Bus.send, hopen, Bus.carry]
  split
  · next hnobody => simp [hnobody]
  · simp [hcarried]

theorem mem_deliveries_send {b : Bus EngineId} {p : SocketId} (hopen : (b.socket p).refusal? m = none)
    (hcarried : Bus.carried m = .ok m) (he : e ∈ b.audience) :
    (e, m) ∈ (b.send p m).2.deliveries := by
  simpa [deliveries_send hopen hcarried] using he

/-- What comes about when an engine that hears a bus receives what is sent there. -/
theorem sendBy_reaches (C : Closed R P) (hreceive : Keeps R P receive) {Q : Fabric → Prop}
    (hstays : ∀ {f g}, R f g → Q f → Q g) {d : EngineId} {x : GatewayId} {b : BusId} {p : SocketId}
    (hx : (f.engine d).gateways = [x]) (hconduit : (f.gateway x).conduit = .socket b p)
    (hopen : ((f.bus b).socket p).refusal? m = none) (he : e ∈ (f.bus b).audience) (hm : P f m)
    (hcarried : Bus.carried m = .ok m) (hnow : ∀ g, R f g → Q (receive g e m)) :
    Q (f.sendBy receive d m).1 := by
  have hbus : R f (f.setBus b ((f.bus b).send p m).1) := C.aside (aside_setBus sockets_send)
  have hds : ∀ c ∈ ((f.bus b).send p m).2.deliveries, P (f.setBus b ((f.bus b).send p m).1) c.2 :=
    fun c hc => C.stable hbus (C.carried hm (mem_send hc))
  have hreach := C.receiveAll_reaches hreceive hstays hds (mem_deliveries_send hopen hcarried he)
    fun g hg => hnow g (C.trans hbus hg)
  simpa [Fabric.sendBy, Fabric.transmitAll, Fabric.transmit, hx, hconduit] using hreach

/-- What comes about when one of several listeners is called. -/
theorem deliver_reaches (C : Closed R P) (hreceive : Keeps R P receive) {Q : Fabric → Prop}
    (hstays : ∀ {f g}, R f g → Q f → Q g) (hm : P f m) {audience : List Hearer} {l : Hearer}
    (hl : l ∈ audience) (hnow : ∀ g, R f g → Q (Fabric.callHearer receive m g l)) :
    Q (f.deliver receive m audience) := by
  induction audience generalizing f with
  | nil => exact absurd hl List.not_mem_nil
  | cons k audience ih =>
    have hk : R f (Fabric.callHearer receive m f k) := C.callHearer hreceive hm k
    have hm' := C.stable hk hm
    rcases List.mem_cons.1 hl with rfl | hl
    · change Q ((Fabric.callHearer receive m f l).deliver receive m audience)
      exact hstays (C.deliver hreceive hm' audience) (hnow f (C.refl f))
    · exact ih hm' hl fun g hg => hnow g (C.trans hk hg)

/-! ## Processing -/

theorem react (C : Closed R P) (S : Processing R P) (hreceive : Keeps R P receive) (hm : P f m)
    (hadm : (f.engine e).admits m = true) (now : Nat) : R f (f.react receive e m now) := by
  unfold Fabric.react
  cases hr : (f.engine e).reaction m with
  | nothing => exact C.refl f
  | membership change => exact S.change hm hadm hr
  | enquiry => exact C.trans (C.aside aside_fresh) (C.sendBy hreceive (S.enquiry hm hr) e)
  | dispatch => exact C.dispatchBy hreceive hm e

theorem engine_inspect : (f.inspect e m).engine e = f.engine e := by
  rw [engine, aside_inspect.engines, engine]

theorem processBy_eq : Fabric.processBy receive f e m =
    let g := if (f.engine e).admits m then
      (f.inspect e m).react receive e m (f.engine e).clock else f.inspect e m
    g.setEngine e ((g.engine e).touched m.sender (f.engine e).clock) := by
  simp only [Fabric.processBy, engine_inspect]

/-- What follows when a message has confirmed what it confirms. -/
theorem after_inspect (C : Closed R P) (S : Processing R P) (hreceive : Keeps R P receive)
    (hm : P f m) : R (f.inspect e m) (Fabric.processBy receive f e m) := by
  have hm' : P (f.inspect e m) m := C.stable (C.aside aside_inspect) hm
  rw [processBy_eq]
  split
  · next hadm =>
    rw [← @engine_inspect f e m] at hadm
    have hreact := C.react S hreceive hm' hadm (f.engine e).clock
    exact C.trans hreact (S.touch (C.stable hreact hm'))
  · exact S.touch hm'

theorem processBy (C : Closed R P) (S : Processing R P) (hreceive : Keeps R P receive) :
    Keeps R P (Fabric.processBy receive) :=
  fun _ _ _ hm => C.trans (C.aside aside_inspect) (C.after_inspect S hreceive hm)

theorem receiveBy (C : Closed R P) (S : Processing R P) (hreceive : Keeps R P receive) :
    Keeps R P (Fabric.receiveBy receive) := by
  intro f e m hm
  unfold Fabric.receiveBy
  split
  · exact C.processBy S hreceive f e m hm
  · exact C.refl f

/-- **What all that happens between receptions keeps, every reception keeps.** -/
theorem reception (C : Closed R P) (S : Processing R P) (depth : Nat) :
    Keeps R P (Fabric.reception (fun f _ _ => f) depth) :=
  Keeps.reception (fun f _ _ _ => C.refl f) (fun _ => C.receiveBy S) depth

/-- What comes about when an engine reacts to a message that is meant for it. -/
theorem receiveBy_reaches (C : Closed R P) (S : Processing R P) (hreceive : Keeps R P receive)
    {Q : Fabric → Prop} (hstays : ∀ {f g}, R f g → Q f → Q g) (hm : P f m)
    (hpresent : (f.engine e).present = true) (hadm : (f.engine e).admits m = true)
    (hnow : ∀ g now, R f g → Q (g.react receive e m now)) : Q (Fabric.receiveBy receive f e m) := by
  have hinspect : R f (f.inspect e m) := C.aside aside_inspect
  have hm' := C.stable hinspect hm
  have hreact := C.react S hreceive hm' (engine_inspect.symm ▸ hadm) (f.engine e).clock
  unfold Fabric.receiveBy
  rw [if_pos hpresent, processBy_eq]
  simp only [hadm, if_true]
  exact hstays (S.touch (C.stable hreact hm')) (hnow _ _ hinspect)

end Closed

end Fabric

end Overlay
