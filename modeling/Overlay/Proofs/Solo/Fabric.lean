import Overlay.Proofs.Bus
import Overlay.Proofs.Cascade.Machine
import Overlay.Proofs.Solo.State

/-!
# The state of a lone engine in the fabric

A fabric shows a state if it has one engine, which sends through one gateway of a bus that nobody
else hears. Whatever comes in there does what it does to the state (`Rests.take`). What it leaves
for the listeners has been delivered by then if the engine delivers at once, and waits for the
worker otherwise (`Lands`).
-/

namespace Overlay

/-- An engine that gets its messages to its listeners in a way, with some that wait. -/
def Engine.inMode (x : Engine) (mode : Dispatch) (waiting : List Message) : Engine :=
  { x with
    settings := { x.settings with dispatch := mode }
    fanout := { x.fanout with mode := mode, queue := waiting } }

namespace Fabric

variable {f g : Fabric} {e : EngineId} {m r : Message} {v w : Solo}
  {waiting queue landed : List Message}
  {x : GatewayId} {b : BusId} {p : SocketId} {mode : Dispatch} {awake : Bool} {l : Hearer}
  {a : AgentId} {receive below : Reception}

/-! ## The lobby in the fabric -/

/-- The lobby of an engine that has a board. -/
def lobbyAt (f : Fabric) (c : BoardId) : Lobby where
  now := f.now
  timers := f.timers
  ready := f.ready.filter (· ≠ .worker 0)
  confirmed := f.confirmed
  criterion := (f.board c).1
  board := (f.board c).2

/-- The worker is none of the lobby's tasks. -/
theorem lobbyAt_worker (f : Fabric) (c : BoardId) (rest : List Task) :
    lobbyAt { f with ready := .worker 0 :: rest } c = lobbyAt { f with ready := rest } c := by
  have hready : (Task.worker 0 :: rest).filter (· ≠ .worker 0) = rest.filter (· ≠ .worker 0) := by
    simp
  exact congrArg (fun ready => Lobby.mk _ _ ready _ _ _) hready

theorem lobbyAt_inspect {c : BoardId} (hc : c < f.boards.length) (he : (f.engine e).board = c)
    (m : Message) : (f.inspect e m).lobbyAt c = (f.lobbyAt c).inspect m := by
  have hset := board_setBoard_self (f := f) ((f.board c).2.receive (f.board c).1 m).1 hc
  have hnot : Task.worker 0 ∉ ((f.board c).2.receive (f.board c).1 m).2.map Task.thread := by simp
  simp only [Fabric.inspect, he, releaseThreads_eq, lobbyAt, Lobby.inspect,
    filter_enqueued hnot]
  exact congrArg (fun entry : Criterion × Board ThreadId => Lobby.mk _ _ _ _ entry.1 entry.2) hset

/-! ## A lone engine -/

/-- The way of a lone engine to its bus and back. -/
structure Loop (x : GatewayId) (b : BusId) (p : SocketId) (f : Fabric) : Prop where
  conduit : (f.gateway x).conduit = .socket b p
  bus : b < f.buses.length
  audience : (f.bus b).audience = [0]
  closed : ((f.bus b).socket p).closed = false
  failing : ((f.bus b).socket p).failing = false

/-- A fabric shows the state of a lone engine, for whose listeners messages wait, and whose worker is
awake or not. -/
structure Shows (x : GatewayId) (b : BusId) (p : SocketId) (mode : Dispatch) (awake : Bool)
    (f : Fabric) (v : Solo) (waiting : List Message) : Prop extends Loop x b p f where
  engines : f.engines = [v.engine.inMode mode waiting]
  gateways : v.engine.gateways = [x]
  present : v.engine.present = true
  accepting : v.engine.fanout.accepting = true
  members : f.members = v.members
  log : (f.bus b).log = v.log
  limit : (f.bus b).limit = v.limit
  heard : f.heard = v.heard
  supply : f.supply = v.supply
  board : v.engine.board < f.boards.length
  lobby : f.lobbyAt v.engine.board = v.lobby
  nodup : f.ready.Nodup
  worker : .worker 0 ∈ f.ready ↔ awake = true

namespace Shows

theorem engine (h : Shows x b p mode awake f v waiting) :
    f.engine 0 = v.engine.inMode mode waiting := by
  simp [Fabric.engine, h.engines]

theorem member (h : Shows x b p mode awake f v waiting) : f.member a = v.member a := by
  rw [Fabric.member, h.members, Solo.member]

theorem fresh (h : Shows x b p mode awake f v waiting) :
    f.fresh.1 = v.fresh.1 ∧ Shows x b p mode awake f.fresh.2 v.fresh.2 waiting := by
  refine ⟨by rw [Fabric.fresh, h.supply, Solo.fresh], ?_⟩
  exact { h with supply := congrArg (· + 1) h.supply }

/-- A message goes to the lobby before anything else. -/
theorem inspect (h : Shows x b p mode awake f v waiting) (m : Message) :
    Shows x b p mode awake (f.inspect 0 m) (v.inspect m) waiting := by
  have hboard : (f.engine 0).board = v.engine.board := by rw [h.engine]; rfl
  have hlobby := (lobbyAt_inspect h.board hboard m).trans (congrArg (Lobby.inspect · m) h.lobby)
  simp only [Fabric.inspect, releaseThreads_eq] at hlobby ⊢
  exact { h with
    board := by simpa [Fabric.setBoard, Solo.inspect] using h.board
    lobby := hlobby
    nodup := nodup_enqueued h.nodup
    worker := by
      rw [mem_enqueued, ← h.worker]
      exact ⟨fun hw => hw.resolve_right (by simp), .inl⟩ }

theorem setEngine (h : Shows x b p mode awake f v waiting) (y : Engine) (queue : List Message)
    (hgateways : y.gateways = v.engine.gateways) (hpresent : y.present = v.engine.present)
    (haccepting : y.fanout.accepting = v.engine.fanout.accepting)
    (hboard : y.board = v.engine.board) :
    Shows x b p mode awake (f.setEngine 0 (y.inMode mode queue)) { v with engine := y } queue :=
  { h with
    engines := by simp [Fabric.setEngine, h.engines]
    gateways := hgateways.trans h.gateways
    present := hpresent.trans h.present
    accepting := haccepting.trans h.accepting
    board := hboard ▸ h.board
    lobby := (congrArg f.lobbyAt hboard).trans h.lobby }

theorem touch (h : Shows x b p mode awake f v waiting) (i : Identity) (now : Nat) :
    Shows x b p mode awake (f.setEngine 0 ((f.engine 0).touched i now)) (v.touched i now)
      waiting := by
  rw [h.engine]
  exact h.setEngine (v.engine.touched i now) waiting rfl rfl rfl rfl

theorem record (h : Shows x b p mode awake f v waiting) (m : Message) :
    Shows x b p mode awake (f.setBus b ((f.bus b).record m)) (v.record m) waiting := by
  have hbus : (f.setBus b ((f.bus b).record m)).bus b = (f.bus b).record m :=
    bus_setBus_self _ h.bus
  exact { h with
    bus := by simpa [Fabric.setBus] using h.bus
    audience := by rw [hbus]; exact h.audience
    closed := by rw [hbus]; exact h.closed
    failing := by rw [hbus]; exact h.failing
    log := by rw [hbus]; simp [Bus.record, Solo.record, h.log, h.limit]
    limit := by rw [hbus]; exact h.limit }

/-! ## What comes back -/

/-- What a lone engine sends, it receives. -/
theorem sendBy (h : Shows x b p mode awake f v waiting) (hr : Bus.carried r = .ok r) :
    (f.sendBy receive 0 r).1 = receive (f.setBus b ((f.bus b).record r)) 0 r := by
  have hopen : ((f.bus b).socket p).refusal? r = none := by
    simp [Socket.refusal?, h.closed, h.failing]
  have hgateways : (f.engine 0).gateways = [x] := by rw [h.engine]; exact h.gateways
  have hdeliveries := Closed.deliveries_send hopen hr
  rw [h.audience] at hdeliveries
  have hlogged : ((f.bus b).send p r).1 = (f.bus b).record r := by rw [Bus.send_of_open hopen]
  simp [Fabric.sendBy, transmitAll, transmit, hgateways, h.conduit, hdeliveries, hlogged, receiveAll]

/-- A message that is not meant for a lone engine is a sign of life and nothing more. -/
theorem receive_dropped (h : Shows x b p mode awake f v waiting)
    (hadm : v.engine.admits m = false) :
    Shows x b p mode awake (receiveBy below f 0 m)
      ((v.inspect m).touched m.sender v.engine.clock) waiting := by
  have hengine := h.engine
  have hpresent : (f.engine 0).present = true := by rw [hengine]; exact h.present
  have hnot : (f.engine 0).admits m = false := by rw [hengine]; exact hadm
  have hclock : (f.engine 0).clock = v.engine.clock := by rw [hengine]; rfl
  rw [receiveBy, if_pos hpresent, Closed.processBy_eq]
  simp only [hnot, hclock]
  exact (h.inspect m).touch _ _

theorem echo (h : Shows x b p mode awake f v waiting) (hr : Bus.carried r = .ok r)
    (hadm : v.engine.admits r = false) :
    Shows x b p mode awake (f.sendBy (receiveBy below) 0 r).1 (v.echo r) waiting := by
  rw [h.sendBy hr]
  exact (h.record r).receive_dropped hadm

end Shows

end Fabric

namespace Solo

/-- Whoever is attached, or about to be, is attached to the engine and registered with it. -/
def Registered (v : Solo) : Prop :=
  ∀ a e, (v.member a).standing.engine? = some e →
    e = 0 ∧ v.engine.directory.local? (v.member a).agent.identity = some a

variable {v w : Solo} {m : Message} {a : AgentId} {e : EngineId} {s : SubscriptionId}

theorem Registered.stays (h : v.Registered) (hs : v.Stays w) : w.Registered := by
  intro a e ha
  have hmember : w.member a = v.member a := by rw [member, hs.members, member]
  rw [hmember] at ha ⊢
  rw [Directory.local?, hs.locals]
  exact h a e ha

/-- What an agent of the process sends is not meant for the engine. -/
theorem Registered.not_admits (h : v.Registered) (ha : (v.member a).standing.engine? = some e)
    (hm : m.sender = (v.member a).agent.identity) : v.engine.admits m = false := by
  have hlocal : v.engine.directory.isLocal m.sender = true :=
    Directory.isLocal_iff.2 ⟨a, hm ▸ (h a e ha).2⟩
  simp [Engine.admits, hlocal]

end Solo

theorem Agent.sender_reply? {agent : Agent} {cloud : Identity} {uuid : Uuid} {m reply : Message}
    (h : agent.reply? cloud uuid m = some reply) : reply.sender = agent.identity := by
  rcases Agent.reply?_eq_some h with ⟨-, rfl⟩ | ⟨-, rfl⟩ <;> rfl

namespace Fabric

variable {f g : Fabric} {e : EngineId} {m r : Message} {v w : Solo}
  {waiting queue landed : List Message}
  {x : GatewayId} {b : BusId} {p : SocketId} {mode : Dispatch} {awake : Bool} {l : Hearer}
  {a : AgentId} {receive below : Reception}

namespace Shows

/-! ## Listeners -/

theorem call (h : Shows x b p mode awake f v waiting) (hv : v.Registered) (l : Hearer) :
    Shows x b p mode awake (callHearer (receiveBy below) m f l) (v.call m l) waiting := by
  cases l with
  | recorder name => exact { h with heard := congrArg ((name, m) :: ·) h.heard }
  | responder a cloud =>
    obtain ⟨huuid, hfresh⟩ := h.fresh
    have hmember : f.fresh.2.member a = v.member a := h.member
    simp only [callHearer, answerBy, Solo.call, hmember, huuid]
    cases hreply : (v.member a).agent.reply? cloud v.fresh.1 m with
    | none => exact hfresh
    | some reply =>
      cases hstands : (v.member a).standing with
      | detached => exact hfresh
      | joining e => exact hfresh
      | joined e s =>
        have hattached : (v.member a).standing.engine? = some e := by rw [hstands]; rfl
        obtain ⟨rfl, -⟩ := hv a e hattached
        exact hfresh.echo (Message.follows_reply hreply).carried
          (hv.not_admits hattached (Agent.sender_reply? hreply))

theorem foldl_call (h : Shows x b p mode awake f v waiting) (hv : v.Registered)
    (audience : List Hearer) : Shows x b p mode awake (f.deliver (receiveBy below) m audience)
      (audience.foldl (Solo.call m) v) waiting := by
  unfold Fabric.deliver
  induction audience generalizing f v with
  | nil => exact h
  | cons l audience ih => exact ih (h.call hv l) (hv.stays Solo.stays_call)

theorem wakeWorker (h : Shows x b p mode awake f v waiting) :
    Shows x b p mode true (f.wake (.worker 0)) v waiting := by
  rw [wake_eq]
  exact { h with
    lobby := by
      rw [← h.lobby]
      simp only [lobbyAt, enqueued, List.foldl_cons, List.foldl_nil]
      congr 1
      split
      · rfl
      · simp
    nodup := nodup_enqueued h.nodup
    worker := by simp [mem_enqueued] }

/-- A message for the listeners waits for the worker. -/
theorem dispatch_worker (h : Shows x b p .worker awake f v waiting) :
    Shows x b p .worker true (f.dispatchBy receive 0 m) v (waiting ++ [m]) := by
  have hdispatch : (f.engine 0).fanout.dispatch m =
      ((v.engine.inMode .worker (waiting ++ [m])).fanout, []) := by
    rw [h.engine]
    simp [Engine.inMode, Fanout.dispatch, h.accepting]
  have hset : f.setFanout 0 (v.engine.inMode .worker (waiting ++ [m])).fanout =
      f.setEngine 0 (v.engine.inMode .worker (waiting ++ [m])) := by
    rw [setFanout, h.engine]
    rfl
  have hqueued := h.setEngine v.engine (waiting ++ [m]) rfl rfl rfl rfl
  simp only [dispatchBy, hdispatch, hset, Fabric.deliver, List.foldl_nil]
  exact hqueued.wakeWorker

/-- A message for the listeners gets to them. -/
theorem dispatch_inline (h : Shows x b p .inline awake f v []) (hv : v.Registered) :
    Shows x b p .inline awake (f.dispatchBy (receiveBy below) 0 m) (v.deliver m) [] := by
  have hdispatch : (f.engine 0).fanout.dispatch m =
      ((v.engine.inMode .inline []).fanout, v.engine.fanout.audience) := by
    rw [h.engine]
    rfl
  have hset : f.setFanout 0 (v.engine.inMode .inline []).fanout =
      f.setEngine 0 (v.engine.inMode .inline []) := by
    rw [setFanout, h.engine]
  simp only [dispatchBy, hdispatch, hset]
  exact (h.setEngine v.engine [] rfl rfl rfl rfl).foldl_call hv v.engine.fanout.audience

end Shows

/-! ## What comes in -/

/-- Messages for the listeners of a lone engine have got to them, or wait for the worker behind
others. -/
def Lands (x : GatewayId) (b : BusId) (p : SocketId) (f : Fabric) (v : Solo)
    (waiting landed : List Message) : Dispatch → Prop
  | .inline => Shows x b p .inline false f (v.settle landed) []
  | .worker => Shows x b p .worker (!(waiting ++ landed).isEmpty) f v (waiting ++ landed)

/-- A fabric shows the state of a lone engine, and only with a worker messages may wait. -/
def Rests (x : GatewayId) (b : BusId) (p : SocketId) (f : Fabric) (v : Solo)
    (waiting : List Message) (mode : Dispatch) : Prop :=
  Shows x b p mode (!waiting.isEmpty) f v waiting ∧ (mode = .inline → waiting = [])

namespace Rests

theorem lands (h : Rests x b p f v waiting mode) : Lands x b p f v waiting [] mode := by
  obtain ⟨hshows, hinline⟩ := h
  cases mode with
  | inline =>
    obtain rfl := hinline rfl
    exact hshows
  | worker => simpa [Lands] using hshows

theorem dispatch (h : Rests x b p f v waiting mode) (hv : v.Registered) :
    Lands x b p (f.dispatchBy (receiveBy below) 0 m) v waiting [m] mode := by
  obtain ⟨hshows, hinline⟩ := h
  cases mode with
  | inline =>
    obtain rfl := hinline rfl
    exact hshows.dispatch_inline hv
  | worker =>
    have hawake : (!(waiting ++ [m]).isEmpty) = true := by simp
    unfold Lands
    rw [hawake]
    exact hshows.dispatch_worker

end Rests

theorem Lands.touch (h : Lands x b p f v waiting landed mode) (i : Identity) (now : Nat) :
    Lands x b p (f.setEngine 0 ((f.engine 0).touched i now)) (v.touched i now) waiting landed
      mode := by
  cases mode with
  | inline =>
    unfold Lands
    rw [Solo.settle_touched]
    exact Shows.touch h i now
  | worker => exact Shows.touch h i now

namespace Rests

/-- What is left of the reception of a message once it is clear what follows from it. -/
theorem process (h : Rests x b p f v waiting mode) (hadm : (v.inspect m).engine.admits m = true)
    (hreact : Lands x b p ((f.inspect 0 m).react receive 0 m (v.inspect m).engine.clock) w waiting
      landed mode) :
    Lands x b p (receiveBy receive f 0 m) (w.touched m.sender (v.inspect m).engine.clock) waiting
      landed mode := by
  have hengine := h.1.engine
  have hpresent : (f.engine 0).present = true := by rw [hengine]; exact h.1.present
  have hmeant : (f.engine 0).admits m = true := by rw [hengine]; exact hadm
  have hclock : (f.engine 0).clock = v.engine.clock := by rw [hengine]; rfl
  rw [receiveBy, if_pos hpresent, Closed.processBy_eq]
  simp only [hmeant, hclock, if_true]
  exact hreact.touch _ _

theorem drop (h : Rests x b p f v waiting mode) (hadm : (v.inspect m).engine.admits m = false) :
    Lands x b p (receiveBy receive f 0 m)
      ((v.inspect m).touched m.sender (v.inspect m).engine.clock) waiting [] mode :=
  Rests.lands ⟨h.1.receive_dropped hadm, h.2⟩

theorem inspect (h : Rests x b p f v waiting mode) (m : Message) :
    Rests x b p (f.inspect 0 m) (v.inspect m) waiting mode :=
  ⟨h.1.inspect m, h.2⟩

/-- A message for the listeners comes in. -/
theorem receive_dispatch (h : Rests x b p f v waiting mode) (hv : v.Registered)
    (hadm : (v.inspect m).engine.admits m = true)
    (hreaction : (v.inspect m).engine.reaction m = .dispatch) :
    Lands x b p (receiveBy (receiveBy below) f 0 m)
      ((v.inspect m).touched m.sender (v.inspect m).engine.clock) waiting [m] mode := by
  apply h.process hadm
  have hengine := (h.inspect m).1.engine
  have hreact : ((f.inspect 0 m).engine 0).reaction m = .dispatch := by
    rw [hengine]
    exact hreaction
  simp only [react, hreact]
  exact (h.inspect m).dispatch hv

/-- What comes in does what it does to the state, and its messages for the listeners land. -/
theorem take (h : Rests x b p f v waiting mode) (hv : v.Registered) (m : Message) :
    Lands x b p (receiveBy (receiveBy (receiveBy below)) f 0 m) (v.take m).1 waiting (v.take m).2
      mode := by
  unfold Solo.take Solo.process
  by_cases hadm : (v.inspect m).engine.admits m = true
  case neg =>
    rw [if_neg hadm]
    exact h.drop (Bool.eq_false_iff.2 hadm)
  rw [if_pos hadm]
  have hinspected := h.inspect m
  have hengine := hinspected.1.engine
  have hsame : ((f.inspect 0 m).engine 0).reaction m = (v.inspect m).engine.reaction m := by
    rw [hengine]
    rfl
  cases hreaction : (v.inspect m).engine.reaction m with
  | nothing =>
    apply h.process hadm
    simp only [react, hsame, hreaction]
    exact hinspected.lands
  | membership change =>
    apply h.process hadm (w := { v.inspect m with
      engine := (v.inspect m).engine.changed m.sender change (v.inspect m).engine.clock })
    simp only [react, hsame, hreaction]
    rw [hengine]
    refine Rests.lands ⟨?_, h.2⟩
    cases change with
    | arrival endpoints =>
      exact hinspected.1.setEngine
        ((v.inspect m).engine.changed m.sender (.arrival endpoints) (v.inspect m).engine.clock)
        waiting rfl rfl rfl rfl
    | departure =>
      exact hinspected.1.setEngine ((v.inspect m).engine.changed m.sender .departure 0) waiting
        rfl rfl rfl rfl
  | dispatch => exact h.receive_dispatch hv hadm hreaction
  | enquiry =>
    apply h.process hadm
    have hidentity : ((f.inspect 0 m).fresh.2.engine 0).identity =
        (v.inspect m).engine.identity := by
      change ((f.inspect 0 m).engine 0).identity = _
      rw [hengine]
      rfl
    obtain ⟨huuid, hfresh⟩ := hinspected.1.fresh
    simp only [react, hsame, hreaction, huuid, hidentity]
    obtain ⟨question, hquestion⟩ : ∃ question, question =
      Message.discovery (v.inspect m).fresh.1 (v.inspect m).engine.identity m.sender := ⟨_, rfl⟩
    have hcarried : Bus.carried question = .ok question :=
      hquestion ▸ (Message.follows_enquiry hreaction _ _ _).carried
    rw [← hquestion, hfresh.sendBy hcarried]
    have hlogged : Rests x b p _ _ waiting mode := ⟨hfresh.record question, h.2⟩
    by_cases hown : (v.inspect m).engine.admits question = true
    case pos =>
      rw [if_pos hown]
      have hfollows := (hv.stays (Solo.stays_inspect m)).stays Solo.stays_fresh
      exact hlogged.receive_dispatch (hfollows.stays (Solo.stays_record _)) hown (hquestion ▸ rfl)
    case neg =>
      rw [if_neg hown]
      exact hlogged.drop (Bool.eq_false_iff.2 hown)

end Rests

end Fabric

end Overlay
