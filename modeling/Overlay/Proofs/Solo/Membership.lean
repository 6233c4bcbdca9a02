import Overlay.Fabric.Command
import Overlay.Proofs.Solo.Alike

/-!
# Joining and leaving a lone engine

What an agent announces comes back and is dropped, since the agent is registered by then and still
is when it has announced its departure. So a join that begins and a departure leave nothing to be
delivered. A join may be confirmed by what its agent has announced, or has to wait; when the wait is
over it ends in the same way, whether confirmed or out of time.
-/

namespace Overlay

/-! ## On the state -/

namespace Solo

/-- Something that is made with the next identifier is sent, and comes back. -/
def say (v : Solo) (make : Uuid → Message) : Solo :=
  v.fresh.2.echo (make v.fresh.1)

def setStanding (v : Solo) (a : AgentId) (standing : Standing) : Solo :=
  { v with members := v.members.modify a fun old => { old with standing := standing } }

def setDirectory (v : Solo) (directory : Directory) : Solo :=
  { v with engine := { v.engine with directory := directory } }

def setFanout (v : Solo) (fanout : Fanout Hearer) : Solo :=
  { v with engine := { v.engine with fanout := fanout } }

def setBoard (v : Solo) (board : Board ThreadId) : Solo :=
  { v with lobby := v.lobby.setBoard board }

def enroll (v : Solo) (a : AgentId) : Except Refusal Solo :=
  match (v.member a).standing with
  | .detached =>
    match v.engine.directory.insertLocal? (v.member a).agent.identity a with
    | some directory => .ok ((v.setStanding a (.joining 0)).setDirectory directory)
    | none => .error (.alreadyRegistered (v.member a).agent.identity v.engine.identity)
  | _ => .error (.alreadyAttached (v.member a).agent.identity)

def openSession (v : Solo) (a : AgentId) : Solo :=
  v.setBoard (v.lobby.board.start (v.member a).agent.identity).1

def announce (v : Solo) (a : AgentId) : Solo :=
  v.say fun uuid => .presence uuid (v.member a).agent.identity v.engine.identity
    (v.member a).agent.endpoints

def ask (v : Solo) (a : AgentId) : Solo :=
  v.say fun uuid => .discovery uuid (v.member a).agent.identity v.engine.identity

def attach (v : Solo) (a : AgentId) : Solo :=
  let (fanout, s) := v.engine.fanout.subscribe (.responder a v.engine.identity)
  (v.setFanout fanout).setStanding a (.joined 0 s)

/-- A join up to the point where it waits. -/
def beginJoin (v : Solo) (a : AgentId) : Except Refusal (Solo × Join) :=
  match v.enroll a with
  | .error refusal => .error refusal
  | .ok w => .ok (((w.openSession a).announce a).ask a, ⟨a, 0, w.lobby.board.sessions.length⟩)

def beginWait (v : Solo) (s : SessionId) (t : ThreadId) : Solo :=
  v.setBoard (v.lobby.board.wait s t).1

/-- A join whose wait is over comes to its end. -/
def finishJoin (v : Solo) (j : Join) (t : ThreadId) : Solo :=
  (v.setBoard ((v.lobby.board.giveUp j.session t).release j.session)).attach j.agent

/-- A thread goes on with a join, or waits on. -/
def resume (v : Solo) (t : ThreadId) (j : Join) (start deadline : Nat) : Solo × Progress :=
  if v.lobby.confirmed.contains t then
    (finishJoin { v with lobby :=
        { v.lobby with confirmed := v.lobby.confirmed.filter (· ≠ t) } } j t,
      .over (.joined true (v.lobby.now - start)))
  else if deadline ≤ v.lobby.now then
    (v.finishJoin j t, .over (.joined false (v.lobby.now - start)))
  else (v, .paused (.join j start deadline none))

/-- A thread begins a join, up to the point where it has to wait. -/
def startJoin (v : Solo) (t : ThreadId) (a : AgentId) : Solo × Progress :=
  match v.beginJoin a with
  | .error refusal => (v, .over (.failed refusal.failure))
  | .ok (w, j) =>
    if (w.lobby.board.wait j.session t).2 then
      ((w.beginWait j.session t).finishJoin j t, .over (.joined true 0))
    else
      (w.beginWait j.session t).resume t j w.lobby.now
        (timerTime w.lobby.now w.engine.settings.joinTimeout.nanos)

/-- Ends the responder of an agent, and announces that it leaves. -/
def depart (v : Solo) (a : AgentId) (s : SubscriptionId) : Solo :=
  ((v.setStanding a .detached).setFanout (v.engine.fanout.unsubscribe s)).say fun uuid =>
    .absence uuid (v.member a).agent.identity v.engine.identity

def leave (v : Solo) (a : AgentId) : Solo :=
  match (v.member a).standing with
  | .joined _ s =>
    let w := v.depart a s
    w.setDirectory (w.engine.directory.removeLocal (v.member a).agent.identity)
  | _ => v

variable {v w : Solo} {a c : AgentId} {s : SubscriptionId} {standing : Standing} {first : Nat}
  {ds : Draws} {make : Uuid → Message}

theorem stays_say : v.Stays (v.say make) := stays_fresh.trans (stays_echo _)

theorem member_setStanding_ne (h : c ≠ a) : (v.setStanding a standing).member c = v.member c := by
  simp [setStanding, member, List.getD, h.symm]

theorem agent_setStanding :
    ((v.setStanding a standing).member c).agent = (v.member c).agent := by
  simp only [setStanding, member, List.getD, List.getElem?_modify]
  cases v.members[c]? with
  | none => rfl
  | some m => by_cases h : a = c <;> simp [h]

/-- An agent stands as said, unless there is no such agent. -/
theorem standing_setStanding_self (v : Solo) (a : AgentId) (standing : Standing) :
    ((v.setStanding a standing).member a).standing = standing ∨
      ((v.setStanding a standing).member a).standing = .detached := by
  simp only [setStanding, member, List.getD, List.getElem?_modify]
  cases v.members[a]? with
  | none => exact .inr rfl
  | some m => exact .inl (by simp)

/-! ### Registrations -/

theorem enroll_eq_ok (h : v.enroll a = .ok w) : (v.member a).standing = .detached ∧
    v.engine.directory.local? (v.member a).agent.identity = none ∧
      w = (v.setStanding a (.joining 0)).setDirectory { v.engine.directory with
        locals := v.engine.directory.locals.enter (v.member a).agent.identity a } := by
  unfold enroll at h
  split at h
  case h_2 => cases h
  case h_1 hstands =>
    split at h
    · next directory hinsert =>
      obtain ⟨hnone, rfl⟩ := Directory.insertLocal?_eq_some hinsert
      exact ⟨hstands, hnone, (Except.ok.inj h).symm⟩
    · cases h

theorem agent_enroll (h : v.enroll a = .ok w) : (w.member c).agent = (v.member c).agent := by
  obtain ⟨-, -, rfl⟩ := enroll_eq_ok h
  exact agent_setStanding

/-- Who has been enrolled is registered. -/
theorem local?_enroll (h : v.enroll a = .ok w) :
    w.engine.directory.local? (w.member a).agent.identity = some a := by
  rw [agent_enroll h]
  obtain ⟨-, -, rfl⟩ := enroll_eq_ok h
  exact (Register.get?_enter _ _ _ a).trans (if_pos rfl)

/-- Registrations are as they should be if nothing has changed but for one agent, whose identity is
nobody else's. -/
theorem Registered.update (h : v.Registered)
    (hagent : ∀ c, (w.member c).agent = (v.member c).agent)
    (hother : ∀ c, c ≠ a → (w.member c).standing = (v.member c).standing)
    (hlocals : ∀ i, i ≠ (v.member a).agent.identity →
      w.engine.directory.local? i = v.engine.directory.local? i)
    (hown : ∀ c, v.engine.directory.local? (v.member a).agent.identity = some c → c = a)
    (hself : ∀ e, (w.member a).standing.engine? = some e →
      e = 0 ∧ w.engine.directory.local? (w.member a).agent.identity = some a) :
    w.Registered := by
  intro c e hc
  by_cases hca : c = a
  case pos =>
    subst hca
    exact hself e hc
  case neg =>
    rw [hother c hca] at hc
    obtain ⟨rfl, hlocal⟩ := h c e hc
    have hne : (v.member c).agent.identity ≠ (v.member a).agent.identity := by
      intro heq
      exact hca (hown c (heq ▸ hlocal))
    rw [hagent, hlocals _ hne]
    exact ⟨rfl, hlocal⟩

theorem Registered.enroll (h : v.Registered) (hw : v.enroll a = .ok w) : w.Registered := by
  have hlocal := local?_enroll hw
  have hagent : ∀ c, (w.member c).agent = (v.member c).agent := fun c => agent_enroll hw
  obtain ⟨-, hnone, rfl⟩ := enroll_eq_ok hw
  refine h.update hagent (fun c hc => congrArg Member.standing (member_setStanding_ne hc))
    (fun i hi => ?_) (fun c hc => ?_) fun e he => ⟨?_, hlocal⟩
  case refine_1 => exact (Register.get?_enter _ _ i a).trans (if_neg hi)
  case refine_2 => rw [hnone] at hc; cases hc
  case refine_3 =>
    change ((v.setStanding a (.joining 0)).member a).standing.engine? = some e at he
    rcases standing_setStanding_self v a (.joining 0) with hs | hs <;> rw [hs] at he
    · exact (Option.some.inj he).symm
    · cases he

theorem Registered.attach (h : v.Registered)
    (ha : v.engine.directory.local? (v.member a).agent.identity = some a) :
    (v.attach a).Registered := by
  have hagent : ∀ c, ((v.attach a).member c).agent = (v.member c).agent := fun c =>
    agent_setStanding
  refine h.update hagent (fun c hc => congrArg Member.standing (member_setStanding_ne hc))
    (fun _ _ => rfl) (fun c hc => Option.some.inj (hc.symm.trans ha)) fun e he => ⟨?_, ?_⟩
  case refine_1 =>
    change ((v.setStanding a (.joined 0 v.engine.fanout.next)).member a).standing.engine? = some e
      at he
    rcases standing_setStanding_self v a (.joined 0 v.engine.fanout.next) with hs | hs <;>
      rw [hs] at he
    · exact (Option.some.inj he).symm
    · cases he
  case refine_2 =>
    rw [hagent]
    exact ha

theorem Registered.leave (h : v.Registered) (a : AgentId) : (v.leave a).Registered := by
  unfold Solo.leave
  split
  · next e s hstands =>
    have hlocal := (h a e (by rw [hstands]; rfl)).2
    have hlocals : (v.depart a s).engine.directory.locals = v.engine.directory.locals :=
      Directory.locals_touch
    refine h.update (fun c => agent_setStanding)
      (fun c hc => congrArg Member.standing (member_setStanding_ne hc)) (fun i hi => ?_)
      (fun c hc => Option.some.inj (hc.symm.trans hlocal)) fun e he => ?_
    case refine_1 =>
      refine Directory.local?_removeLocal.trans ?_
      rw [if_neg hi, Directory.local?, hlocals, Directory.local?]
    case refine_2 =>
      change ((v.setStanding a .detached).member a).standing.engine? = some e at he
      rcases standing_setStanding_self v a .detached with hs | hs <;> rw [hs] at he <;> cases he
  · exact h

/-! ### On both sides -/

theorem Like.say (h : Like first ds v w) {make' : Uuid → Message} (hmake : make' = make)
    (huuid : ∀ u, (make u).uuid = u) (hrest : ∀ u u', (make u).withUuid u' = make u') :
    Like first (ds ++ [(v.supply, w.supply)]) (v.say make) (w.say make') := by
  subst hmake
  have hsame := same_fresh ds v w (huuid v.fresh.1)
  rw [hrest] at hsame
  exact h.fresh.echo hsame

theorem Like.setStanding (h : Like first ds v w) (a : AgentId) (standing : Standing) :
    Like first ds (v.setStanding a standing) (w.setStanding a standing) :=
  { h with members := by rw [Solo.setStanding, Solo.setStanding, h.members] }

theorem Like.setDirectory (h : Like first ds v w) (directory : Directory) :
    Like first ds (v.setDirectory directory) (w.setDirectory directory) :=
  { h with engine := by rw [Solo.setDirectory, Solo.setDirectory, h.engine] }

theorem Like.setFanout (h : Like first ds v w) (fanout : Fanout Hearer) :
    Like first ds (v.setFanout fanout) (w.setFanout fanout) :=
  { h with engine := by rw [Solo.setFanout, Solo.setFanout, h.engine] }

theorem Like.attach (h : Like first ds v w) (a : AgentId) :
    Like first ds (v.attach a) (w.attach a) := by
  unfold Solo.attach
  rw [h.engine]
  exact (h.setFanout _).setStanding a _

theorem Like.say_alike (h : Like first ds v w) {make' : Uuid → Message} (hmake : make' = make)
    (huuid : ∀ u, (make u).uuid = u) (hrest : ∀ u u', (make u).withUuid u' = make u') :
    Alike first ds (v.say make) (w.say make') :=
  (h.say hmake huuid hrest).alike.of_append

theorem Like.announce (h : Like first ds v w) (a : AgentId) :
    Alike first ds (v.announce a) (w.announce a) :=
  h.say_alike (by rw [h.member, h.engine]) (fun _ => rfl) fun _ _ => rfl

theorem Like.ask (h : Like first ds v w) (a : AgentId) :
    Alike first ds (v.ask a) (w.ask a) :=
  h.say_alike (by rw [h.member, h.engine]) (fun _ => rfl) fun _ _ => rfl

theorem Like.setBoard (h : Like first ds v w) {board board' : Board ThreadId}
    (heven : board.Even board') : Like first ds (v.setBoard board) (w.setBoard board') := by
  obtain ⟨between, -, hlobby⟩ := h.lobby
  exact { h with lobby := ⟨board', heven, by rw [Solo.setBoard, Solo.setBoard, hlobby]; rfl⟩ }

theorem Like.board (h : Like first ds v w) : v.lobby.board.Even w.lobby.board := by
  obtain ⟨board, heven, hlobby⟩ := h.lobby
  rw [hlobby]
  exact heven

theorem Like.now (h : Like first ds v w) : w.lobby.now = v.lobby.now := by
  obtain ⟨board, heven, hlobby⟩ := h.lobby
  rw [hlobby]
  rfl

theorem Like.confirmed (h : Like first ds v w) : w.lobby.confirmed = v.lobby.confirmed := by
  obtain ⟨board, heven, hlobby⟩ := h.lobby
  rw [hlobby]
  rfl

/-- An agent can join on both sides or on none. -/
theorem Like.enroll (h : Like first ds v w) (a : AgentId) :
    (∃ r, v.enroll a = .error r ∧ w.enroll a = .error r) ∨
      ∃ v' w', v.enroll a = .ok v' ∧ w.enroll a = .ok w' ∧ Like first ds v' w' := by
  unfold Solo.enroll
  rw [h.member, h.engine]
  cases (v.member a).standing with
  | joining e => exact .inl ⟨_, rfl, rfl⟩
  | joined e s => exact .inl ⟨_, rfl, rfl⟩
  | detached =>
    cases v.engine.directory.insertLocal? (v.member a).agent.identity a with
    | none => exact .inl ⟨_, rfl, rfl⟩
    | some directory =>
      exact .inr ⟨_, _, rfl, rfl, (h.setStanding a (.joining 0)).setDirectory directory⟩

theorem Like.openSession (h : Like first ds v w) (a : AgentId) :
    Like first ds (v.openSession a) (w.openSession a) := by
  unfold Solo.openSession
  rw [h.member]
  exact h.setBoard (h.board.start _).1

theorem Like.finishJoin (h : Like first ds v w) (j : Join) (t : ThreadId) :
    Like first ds (v.finishJoin j t) (w.finishJoin j t) :=
  (h.setBoard ((h.board.giveUp j.session t).release j.session)).attach j.agent

theorem Like.resume (h : Like first ds v w) (t : ThreadId) (j : Join) (start deadline : Nat) :
    (w.resume t j start deadline).2 = (v.resume t j start deadline).2 ∧
      Like first ds (v.resume t j start deadline).1 (w.resume t j start deadline).1 := by
  unfold Solo.resume
  rw [h.confirmed, h.now]
  by_cases hconfirmed : v.lobby.confirmed.contains t = true
  case pos =>
    rw [if_pos hconfirmed, if_pos hconfirmed]
    refine ⟨rfl, Like.finishJoin ?_ j t⟩
    obtain ⟨board, heven, hlobby⟩ := h.lobby
    exact { h with
      blind := h.blind
      lobby := ⟨board, heven, by rw [hlobby]; rfl⟩ }
  case neg =>
    rw [if_neg hconfirmed, if_neg hconfirmed]
    split
    · exact ⟨rfl, h.finishJoin j t⟩
    · exact ⟨rfl, h⟩

/-- The session of a join that has begun is the one that counts. -/
theorem current_beginJoin {j : Join} (h : v.beginJoin a = .ok (w, j)) :
    ∃ i, w.lobby.board.current.get? i = some j.session := by
  unfold beginJoin at h
  split at h
  · cases h
  · next u hu =>
    obtain ⟨rfl, rfl⟩ := Prod.mk.inj (Except.ok.inj h)
    have hstays : (u.openSession a).Stays (((u.openSession a).announce a).ask a) :=
      stays_say.trans stays_say
    obtain ⟨ms, hms⟩ := hstays.lobby
    refine ⟨(u.member a).agent.identity, ?_⟩
    rw [hms, (Lobby.later_foldl_inspect ms).current]
    exact (Register.get?_enter _ _ _ _).trans (if_pos rfl)

theorem Like.beginJoin (h : Like first ds v w) (a : AgentId) :
    (∃ r, v.beginJoin a = .error r ∧ w.beginJoin a = .error r) ∨
      ∃ v' w' j, v.beginJoin a = .ok (v', j) ∧ w.beginJoin a = .ok (w', j) ∧
        Alike first ds v' w' := by
  unfold Solo.beginJoin
  obtain ⟨r, hv, hw⟩ | ⟨v', w', hv, hw, henrolled⟩ := h.enroll a
  case inl =>
    rw [hv, hw]
    exact .inl ⟨r, rfl, rfl⟩
  case inr =>
    have hsession := henrolled.board.length
    rw [hv, hw]
    refine .inr ⟨_, _, _, rfl, by dsimp only; rw [hsession], ?_⟩
    exact ((henrolled.openSession a).announce a).bind fun _ _ hannounced => hannounced.ask a

/-- A join begins in the same way on both sides, and comes as far. -/
theorem Like.startJoin (h : Like first ds v w) (t : ThreadId) (a : AgentId) :
    (w.startJoin t a).2 = (v.startJoin t a).2 ∧
      Alike first ds (v.startJoin t a).1 (w.startJoin t a).1 := by
  unfold Solo.startJoin
  obtain ⟨r, hv, hw⟩ | ⟨v', w', j, hv, hw, es, hes, hlike⟩ := h.beginJoin a
  case inl =>
    rw [hv, hw]
    exact ⟨rfl, h.alike⟩
  case inr =>
    rw [hv, hw]
    obtain ⟨hwait, honce⟩ := hlike.board.wait (current_beginJoin hv) t
    have hwaits : Like first es (v'.beginWait j.session t) (w'.beginWait j.session t) :=
      hlike.setBoard hwait
    dsimp only
    rw [honce, hlike.now, hlike.engine]
    split
    · exact ⟨rfl, es, hes, hwaits.finishJoin j t⟩
    · exact (hwaits.resume t j _ _).imp_right fun hresumed => ⟨es, hes, hresumed⟩

theorem Like.leave (h : Like first ds v w) (a : AgentId) :
    Alike first ds (v.leave a) (w.leave a) := by
  unfold Solo.leave
  rw [h.member]
  cases (v.member a).standing with
  | detached => exact h.alike
  | joining e => exact h.alike
  | joined e s =>
    have hdetached := (h.setStanding a .detached).setFanout (v.engine.fanout.unsubscribe s)
    have hdeparted : Alike first ds (v.depart a s) (w.depart a s) := by
      unfold Solo.depart
      rw [h.member, h.engine]
      exact hdetached.say_alike rfl (fun _ => rfl) fun _ _ => rfl
    refine hdeparted.bind fun _ _ hlike => ?_
    simp only [hlike.engine]
    exact (hlike.setDirectory _).alike

end Solo

/-! ## In the fabric -/

namespace Fabric

variable {f g : Fabric} {v w : Solo} {m : Message} {x : GatewayId} {b : BusId} {p : SocketId}
  {mode : Dispatch} {awake : Bool} {waiting : List Message} {a : AgentId}
  {make : Uuid → Message}

namespace Shows

theorem say (h : Shows x b p mode awake f v waiting)
    (hcarried : Bus.carried (make v.fresh.1) = .ok (make v.fresh.1))
    (hadm : v.engine.admits (make v.fresh.1) = false) :
    Shows x b p mode awake (f.fresh.2.send 0 (make f.fresh.1)).1 (v.say make) waiting := by
  obtain ⟨huuid, hfresh⟩ := h.fresh
  rw [huuid]
  exact hfresh.echo hcarried hadm

theorem setStanding (h : Shows x b p mode awake f v waiting) (a : AgentId) (standing : Standing) :
    Shows x b p mode awake (f.setStanding a standing) (v.setStanding a standing) waiting :=
  { h with members := by rw [Fabric.setStanding, Solo.setStanding, h.members] }

theorem setDirectory (h : Shows x b p mode awake f v waiting) (directory : Directory) :
    Shows x b p mode awake (f.setDirectory 0 directory) (v.setDirectory directory) waiting := by
  rw [Fabric.setDirectory, h.engine]
  exact h.setEngine { v.engine with directory := directory } waiting rfl rfl rfl rfl

/-- The listeners are others, but messages are delivered in the same way. -/
theorem setFanout (h : Shows x b p mode awake f v waiting) (fanout : Fanout Hearer)
    (haccepting : fanout.accepting = v.engine.fanout.accepting) :
    Shows x b p mode awake (f.setFanout 0 { fanout with mode := mode, queue := waiting })
      (v.setFanout fanout) waiting := by
  rw [Fabric.setFanout, h.engine]
  exact h.setEngine { v.engine with fanout := fanout } waiting rfl rfl haccepting rfl

/-- An agent can join in the fabric as it can on the state. -/
theorem enroll (h : Shows x b p mode awake f v waiting) (a : AgentId) :
    (∃ r, v.enroll a = .error r ∧ f.enroll a 0 = .error r) ∨
      ∃ w g, v.enroll a = .ok w ∧ f.enroll a 0 = .ok g ∧ Shows x b p mode awake g w waiting := by
  have hdirectory : (f.engine 0).directory = v.engine.directory := by rw [h.engine]; rfl
  have hidentity : (f.engine 0).identity = v.engine.identity := by rw [h.engine]; rfl
  unfold Solo.enroll Fabric.enroll
  dsimp only
  rw [h.member, hdirectory, hidentity]
  cases (v.member a).standing with
  | joining e => exact .inl ⟨_, rfl, rfl⟩
  | joined e s => exact .inl ⟨_, rfl, rfl⟩
  | detached =>
    dsimp only
    cases v.engine.directory.insertLocal? (v.member a).agent.identity a with
    | none => exact .inl ⟨_, rfl, rfl⟩
    | some directory =>
      exact .inr ⟨_, _, rfl, rfl, (h.setStanding a (.joining 0)).setDirectory directory⟩

theorem setBoard (h : Shows x b p mode awake f v waiting) (board : Board ThreadId) :
    Shows x b p mode awake (f.setBoard v.engine.board board) (v.setBoard board) waiting := by
  have hset := board_setBoard_self (f := f) board h.board
  have hcriterion := congrArg Lobby.criterion h.lobby
  exact { h with
    board := by simpa [Fabric.setBoard, Solo.setBoard] using h.board
    lobby := by
      rw [Solo.setBoard, ← h.lobby]
      exact congrArg (fun entry : Criterion × Board ThreadId => Lobby.mk _ _ _ _ entry.1 entry.2)
        hset }

theorem boardOf (h : Shows x b p mode awake f v waiting) : (f.engine 0).board = v.engine.board ∧
    (f.board v.engine.board).2 = v.lobby.board := by
  refine ⟨by rw [h.engine]; rfl, congrArg Lobby.board h.lobby⟩

theorem openSession (h : Shows x b p mode awake f v waiting) (a : AgentId) :
    (f.openSession a 0).2 = ⟨a, 0, v.lobby.board.sessions.length⟩ ∧
      Shows x b p mode awake (f.openSession a 0).1 (v.openSession a) waiting := by
  obtain ⟨hboard, hsame⟩ := h.boardOf
  simp only [Fabric.openSession, hboard, hsame, h.member]
  exact ⟨rfl, h.setBoard _⟩

/-- What an agent that is registered says about itself is not meant for the engine. -/
theorem say_registered (h : Shows x b p mode awake f v waiting) (make : Uuid → Message)
    (hlocal : v.engine.directory.isLocal (make v.fresh.1).sender = true)
    (hplain : ∀ body, (make v.fresh.1).payload ≠ .app body) :
    Shows x b p mode awake (f.fresh.2.send 0 (make f.fresh.1)).1 (v.say make) waiting :=
  h.say (Bus.carried_of_not_app hplain) (by simp [Engine.admits, hlocal])

theorem announceArrival (h : Shows x b p mode awake f v waiting)
    (hlocal : v.engine.directory.isLocal (v.member a).agent.identity = true) :
    Shows x b p mode awake (f.announceArrival a 0) (v.announce a) waiting := by
  have hmember : f.fresh.2.member a = v.member a := h.member
  have hidentity : (f.fresh.2.engine 0).identity = v.engine.identity := by
    rw [h.fresh.2.engine]
    rfl
  simp only [Fabric.announceArrival, hmember, hidentity]
  exact h.say_registered (fun uuid => .presence uuid _ _ _) hlocal
    (by simp [Message.presence, Message.withPayload, Payload.arrival])

theorem askAround (h : Shows x b p mode awake f v waiting)
    (hlocal : v.engine.directory.isLocal (v.member a).agent.identity = true) :
    Shows x b p mode awake (f.askAround a 0) (v.ask a) waiting := by
  have hmember : f.fresh.2.member a = v.member a := h.member
  have hidentity : (f.fresh.2.engine 0).identity = v.engine.identity := by
    rw [h.fresh.2.engine]
    rfl
  simp only [Fabric.askAround, hmember, hidentity]
  exact h.say_registered (fun uuid => .discovery uuid _ _) hlocal
    (by simp [Message.discovery, Message.plain])

theorem attach (h : Shows x b p mode awake f v waiting) (a : AgentId) :
    Shows x b p mode awake (f.attach a 0) (v.attach a) waiting := by
  unfold Fabric.attach Solo.attach
  rw [h.engine]
  exact (h.setFanout (v.engine.fanout.subscribe (.responder a v.engine.identity)).1 rfl).setStanding
    a _

theorem beginJoin (h : Shows x b p mode awake f v waiting) (a : AgentId) :
    (∃ r, v.beginJoin a = .error r ∧ f.beginJoin a 0 = .error r) ∨
      ∃ w g j, v.beginJoin a = .ok (w, j) ∧ f.beginJoin a 0 = .ok (g, j) ∧ j.engine = 0 ∧
        Shows x b p mode awake g w waiting := by
  unfold Solo.beginJoin
  obtain ⟨r, hnone, hrefused⟩ | ⟨w, g, hsome, henrolled, hg⟩ := h.enroll a
  case inl =>
    rw [hnone]
    exact .inl ⟨r, rfl, by rw [Fabric.beginJoin, hrefused]; rfl⟩
  case inr =>
    obtain ⟨hsession, hopened⟩ := hg.openSession a
    have hlocal : w.engine.directory.isLocal (w.member a).agent.identity = true :=
      Directory.isLocal_iff.2 ⟨a, Solo.local?_enroll hsome⟩
    have hstill : ((w.openSession a).announce a).engine.directory.isLocal
        (((w.openSession a).announce a).member a).agent.identity = true :=
      Directory.isLocal_touch.trans hlocal
    rw [hsome]
    refine .inr ⟨_, _, _, rfl, ?_, rfl, (hopened.announceArrival hlocal).askAround hstill⟩
    rw [Fabric.beginJoin, henrolled, ← hsession]
    rfl

theorem beginWait (h : Shows x b p mode awake f v waiting) {j : Join} (hj : j.engine = 0)
    (t : ThreadId) : (f.beginWait j t).2 = (v.lobby.board.wait j.session t).2 ∧
      Shows x b p mode awake (f.beginWait j t).1 (v.beginWait j.session t) waiting := by
  obtain ⟨hboard, hsame⟩ := h.boardOf
  simp only [Fabric.beginWait, hj, hboard, hsame]
  exact ⟨trivial, h.setBoard _⟩

theorem finishJoin (h : Shows x b p mode awake f v waiting) {j : Join} (hj : j.engine = 0)
    (t : ThreadId) : Shows x b p mode awake (f.finishJoin j t) (v.finishJoin j t) waiting := by
  obtain ⟨hboard, hsame⟩ := h.boardOf
  have hreleased : f.releaseSession j t = f.setBoard v.engine.board
      ((v.lobby.board.giveUp j.session t).release j.session) := by
    simp only [Fabric.releaseSession, hj, hboard, hsame]
  rw [Fabric.finishJoin, hreleased, hj]
  exact (h.setBoard _).attach j.agent

/-- A thread goes on with a join in the fabric as it does on the state. -/
theorem resume (h : Shows x b p mode awake f v waiting) {j : Join} (hj : j.engine = 0)
    (t : ThreadId) (start deadline : Nat) :
    (f.resume t (.join j start deadline none)).2 = (v.resume t j start deadline).2 ∧
      Shows x b p mode awake (f.resume t (.join j start deadline none)).1
        (v.resume t j start deadline).1 waiting := by
  have hnow := congrArg Lobby.now h.lobby
  have hconfirmed := congrArg Lobby.confirmed h.lobby
  simp only [lobbyAt] at hnow hconfirmed
  simp only [Fabric.resume, Solo.resume, hnow, hconfirmed, earliest]
  split
  · refine ⟨rfl, finishJoin ?_ hj t⟩
    exact { h with lobby := by rw [← h.lobby]; rfl }
  · split
    · exact ⟨rfl, h.finishJoin hj t⟩
    · exact ⟨rfl, h⟩

/-- **A join begins in the fabric as it does on the state.** -/
theorem startJoin (h : Shows x b p mode awake f v waiting) (t : ThreadId) (a : AgentId) :
    (f.start t (.join a 0 none)).2 = (v.startJoin t a).2 ∧
      Shows x b p mode awake (f.start t (.join a 0 none)).1 (v.startJoin t a).1 waiting := by
  simp only [Fabric.start, Fabric.startJoin, Solo.startJoin]
  obtain ⟨r, hv, hf⟩ | ⟨w, g, j, hv, hf, hj, hg⟩ := h.beginJoin a
  case inl =>
    rw [hv, hf]
    exact ⟨rfl, h⟩
  case inr =>
    rw [hv, hf]
    obtain ⟨honce, hwaits⟩ := hg.beginWait hj t
    have hnow := congrArg Lobby.now hwaits.lobby
    have hsettings : ((g.beginWait j t).1.engine 0).settings.joinTimeout =
        w.engine.settings.joinTimeout := by rw [hwaits.engine]; rfl
    simp only [lobbyAt] at hnow
    dsimp only
    rw [honce]
    split
    · exact ⟨rfl, hwaits.finishJoin hj t⟩
    · simp only [Option.map_none, hnow, hsettings]
      exact hwaits.resume hj t _ _

theorem depart (h : Shows x b p mode awake f v waiting) {s : SubscriptionId}
    (hlocal : v.engine.directory.isLocal (v.member a).agent.identity = true) :
    Shows x b p mode awake (((f.setStanding a .detached).setFanout 0
      ((f.engine 0).fanout.unsubscribe s)).announceDeparture a 0) (v.depart a s) waiting := by
  have hset := (h.setStanding a .detached).setFanout (v.engine.fanout.unsubscribe s) rfl
  have hfanout : (f.engine 0).fanout.unsubscribe s =
      { v.engine.fanout.unsubscribe s with mode := mode, queue := waiting } := by
    rw [h.engine]
    rfl
  rw [← hfanout] at hset
  have hagent := congrArg Member.agent (hset.fresh.2.member (a := a))
  have hidentity := congrArg Engine.identity hset.fresh.2.engine
  simp only [announceDeparture, hagent, hidentity]
  have hsame : (((v.setStanding a .detached).setFanout (v.engine.fanout.unsubscribe s)).fresh.2.member
      a).agent = (v.member a).agent := Solo.agent_setStanding
  rw [hsame]
  exact hset.say_registered (fun uuid => .absence uuid _ _) hlocal
    (by simp [Message.absence, Message.withPayload, Payload.departure])

theorem leave (h : Shows x b p mode awake f v waiting) (hv : v.Registered) (a : AgentId) :
    Shows x b p mode awake (f.carryOut (.leave a)).1 (v.leave a) waiting := by
  simp only [carryOut, Fabric.leave, detach, h.member, Solo.leave]
  cases hstands : (v.member a).standing with
  | detached => exact h
  | joining e => exact h
  | joined e s =>
    obtain ⟨rfl, hregistered⟩ := hv a e (by rw [hstands]; rfl)
    have hdeparted := h.depart (a := a) (s := s) (Directory.isLocal_iff.2 ⟨a, hregistered⟩)
    have hagent : ((v.depart a s).member a).agent = (v.member a).agent := Solo.agent_setStanding
    have hidentity := congrArg Agent.identity
      ((congrArg Member.agent (hdeparted.member (a := a))).trans hagent)
    have hleft := hdeparted.setDirectory
      ((v.depart a s).engine.directory.removeLocal (v.member a).agent.identity)
    have hdirectory := congrArg Engine.directory hdeparted.engine
    change Shows x b p mode awake (unregister _ a 0) _ waiting
    rw [unregister, hidentity, hdirectory]
    exact hleft

end Shows

end Fabric

end Overlay
