import Overlay.Proofs.Lone.Echo

/-!
# Joins without anybody else

A join of an engine that hears only itself up to the point where it waits (`Underway`), and what is
left when it is over (`Completes`). The announcement comes back through every gateway that takes it,
at a time at which the session is open already; so the wait either is over before it begins, or
nothing has been taken at all.
-/

namespace Overlay

namespace Register

variable {α : Type} {r : Register α} {i : Identity}

theorem eq_of_toList {r' : Register α} (h : r.toList = r'.toList) : r = r' := by
  cases r
  cases r'
  congr

theorem erase_of_get?_eq_none (h : r.get? i = none) : r.erase i = r := by
  refine eq_of_toList (List.filter_eq_self.2 fun x hx => ?_)
  have hne : x.1 ≠ i := by
    rintro rfl
    rw [mem_toList.1 hx] at h
    contradiction
  simpa using hne

/-- What has been entered and erased is not there, nor is what was there before. -/
theorem erase_enter (r : Register α) (i : Identity) (a : α) : (r.enter i a).erase i = r.erase i := by
  apply eq_of_toList
  simp [enter, erase, List.filter_filter]

end Register

namespace Fabric

variable {f g h v w : Fabric} {a : AgentId} {d e : EngineId} {j : Join} {t : ThreadId}

/-! ## Contacts that are not quiet -/

/-- No engine would ask any of its contacts for a sign of life. -/
def Calm (f : Fabric) : Prop :=
  ∀ d, ∀ c ∈ (f.engine d).directory.remotes.toList, (f.engine d).isQuiet c.2 = false

theorem Calm.of_seen (hf : f.Calm) (hsettings : ∀ d, (g.engine d).settings = (f.engine d).settings)
    (hclock : ∀ d, (g.engine d).clock = (f.engine d).clock)
    (hremotes : ∀ d, (g.engine d).directory.remotes = (f.engine d).directory.remotes)
    (hseen : ∀ d s, ((f.engine d).directory.contact s).lastSeen ≤
      ((g.engine d).directory.contact s).lastSeen) : g.Calm := by
  intro d c hc
  rw [hremotes] at hc
  have hle := hseen d c.2
  have hquiet := of_decide_eq_false (hf d c hc)
  refine decide_eq_false fun hlate => hquiet ?_
  rw [Engine.idle, hsettings, hclock] at hlate
  rw [Engine.idle]
  omega

theorem Hush.calm (hg : f.Hush g) (hf : f.Calm) : g.Calm :=
  hf.of_seen (fun d => congrArg Fixture.settings (hg.fixture d)) hg.clock hg.remotes hg.seen

theorem Hush.isLocal (hg : f.Hush g) :
    (g.engine e).directory.isLocal (g.member a).agent.identity =
      (f.engine e).directory.isLocal (f.member a).agent.identity := by
  rw [hg.member, Directory.isLocal, hg.locals, Directory.isLocal]

/-! ## The parts of a join -/

/-- An agent has a session that counts, and is registered: its join is under way. -/
structure Underway (a : AgentId) (e : EngineId) (j : Join) (f w : Fabric) : Prop
    extends f.Still w where
  agent : j.agent = a
  engine : j.engine = e
  members : w.members = (f.setStanding a (.joining e)).members
  fanout : (w.engine e).fanout = (f.engine e).fanout
  registered : (w.engine e).directory.local? (f.member a).agent.identity = some a
  owner : ((w.board (f.engine e).board).2.session j.session).agent = (f.member a).agent.identity
  current : (w.board (f.engine e).board).2.current =
    (f.board (f.engine e).board).2.current.enter (f.member a).agent.identity j.session

/-- Every gateway of an engine that takes messages has taken an agent's announcement, and after
that its question who is there. -/
def Announced (a : AgentId) (e : EngineId) (f g : Fabric) : Prop :=
  ∃ u v, ∀ b, (g.bus b).log = (f.bus b).log ++
    List.replicate ((f.outlets e).count b) (.presence u (f.member a).agent.identity
      (f.engine e).identity (f.member a).agent.endpoints) ++
    List.replicate ((f.outlets e).count b) (.discovery v (f.member a).agent.identity
      (f.engine e).identity)

/-- What a join that has come to its end leaves behind: the agent is attached and registered, with a
responder that listens last, and no join of it is pending, while all others are. -/
structure Completes (a : AgentId) (e : EngineId) (f g : Fabric) : Prop where
  joined : (g.member a).standing = .joined e (f.engine e).fanout.next
  responder : (g.engine e).fanout.listeners = (f.engine e).fanout.listeners ++
    [((f.engine e).fanout.next, .responder a (f.engine e).identity)]
  registered : (g.engine e).directory.local? (f.member a).agent.identity = some a
  pending : (g.board (g.engine e).board).2.current =
    (f.board (f.engine e).board).2.current.erase (f.member a).agent.identity
  announced : Announced a e f g

/-- Joins are pending as before, if none of the agent was. -/
theorem Completes.pending_eq (hg : Completes a e f g)
    (hnone : (f.board (f.engine e).board).2.current.get? (f.member a).agent.identity = none) :
    (g.board (g.engine e).board).2.current = (f.board (f.engine e).board).2.current := by
  rw [hg.pending, Register.erase_of_get?_eq_none hnone]

theorem Underway.setBoard (hw : Underway a e j f w) {board : Board ThreadId}
    (hb : (f.engine e).board < f.boards.length)
    (hboard : (w.board (f.engine e).board).2.Alike board) :
    Underway a e j f (w.setBoard (f.engine e).board board) where
  toStill := hw.toStill.trans (still_setBoard _)
  agent := hw.agent
  engine := hw.engine
  members := hw.members
  fanout := hw.fanout
  registered := hw.registered
  owner := by
    rw [board_setBoard_self _ (hw.boards ▸ hb)]
    exact (hboard.agent _).trans hw.owner
  current := by
    rw [board_setBoard_self _ (hw.boards ▸ hb)]
    exact hboard.current.trans hw.current

/-- What is sent on behalf of the agent does not end its join. -/
theorem Underway.of_hush (hw : Underway a e j f w) (hg : w.Hush g) : Underway a e j f g where
  toStill := hw.toStill.trans hg.toStill
  agent := hw.agent
  engine := hw.engine
  members := hg.members.trans hw.members
  fanout := (hg.fanout e).trans hw.fanout
  registered := hg.local?.trans hw.registered
  owner := ((hg.board _).agent _).trans hw.owner
  current := (hg.board _).current.trans hw.current

theorem Underway.beginWait (hw : Underway a e j f w) (hb : (f.engine e).board < f.boards.length)
    (t : ThreadId) : Underway a e j f (w.beginWait j t).1 := by
  have hboard : (w.engine j.engine).board = (f.engine e).board := by
    rw [hw.engine, hw.board_engine]
  rw [Fabric.beginWait, hboard]
  exact hw.setBoard hb Board.alike_wait

/-- Whether it has been confirmed or not, a join under way comes to its end. -/
theorem Underway.completes (hw : Underway a e j f w) (hlog : Announced a e f w)
    (ha : a < f.members.length) (hb : (f.engine e).board < f.boards.length) (t : ThreadId) :
    Completes a e f (w.finishJoin j t) := by
  have hlen : a < w.members.length := by
    rw [hw.members]
    exact Nat.lt_of_lt_of_eq ha (List.length_modify _ _ _).symm
  have he : e < w.engines.length := lt_of_local? hw.registered
  have hboard : (w.engine e).board = (f.engine e).board := hw.board_engine
  have hfinish : w.finishJoin j t = (w.releaseSession j t).attach a e := by
    rw [finishJoin, hw.agent, hw.engine]
  have hafter : ((w.finishJoin j t).engine e).board = (f.engine e).board := by
    rw [hfinish, alike_attach.toStill.board_engine]
    exact hboard
  rw [hfinish] at hafter ⊢
  constructor
  case joined =>
    have hstanding := standing_attach (f := w.releaseSession j t) (e := e) hlen a
    rw [hstanding, if_pos rfl]
    exact congrArg (fun fanout : Fanout Hearer => Standing.joined e fanout.next) hw.fanout
  case responder =>
    have hfanout := fanout_attach (f := w.releaseSession j t) (a := a) he e
    rw [hfanout, if_pos rfl]
    change (w.engine e).fanout.listeners ++
      [((w.engine e).fanout.next, .responder a (w.engine e).identity)] = _
    rw [hw.fanout, hw.identity_engine]
  case registered =>
    rw [alike_attach.directory]
    exact hw.registered
  case pending =>
    rw [hafter]
    change ((w.releaseSession j t).board (f.engine e).board).2.current = _
    have hgave : (w.board (f.engine e).board).2.Alike
        ((w.board (f.engine e).board).2.giveUp j.session t) := Board.alike_giveUp
    rw [releaseSession, hw.engine, hboard, board_setBoard_self _ (hw.boards ▸ hb), Board.release]
    simp only [Register.eraseIf, hgave.agent, hgave.current, hw.owner, hw.current,
      Register.get?_enter, if_true, beq_self_eq_true, Register.erase_enter]
  case announced => exact hlog

/-! ## Registration -/

/-- Something has happened without taking time or leaving anything to do. -/
structure Momentary (f g : Fabric) : Prop where
  now : g.now = f.now
  ready : g.ready = f.ready
  timers : g.timers = f.timers
  confirmed : g.confirmed = f.confirmed

theorem Momentary.trans (hfg : f.Momentary g) (hgh : g.Momentary h) : f.Momentary h where
  now := hgh.now.trans hfg.now
  ready := hgh.ready.trans hfg.ready
  timers := hgh.timers.trans hfg.timers
  confirmed := hgh.confirmed.trans hfg.confirmed

theorem Hush.momentary (hg : f.Hush g) : f.Momentary g := by
  rw [hg.rest]
  exact ⟨rfl, rfl, rfl, rfl⟩

/-- Registration concerns engines and agents only. -/
theorem rest_enroll (hg : f.enroll a e = .ok g) :
    g = { f with engines := g.engines, members := (f.setStanding a (.joining e)).members } := by
  unfold enroll at hg
  simp only at hg
  split at hg
  · split at hg
    · obtain rfl := Except.ok.inj hg
      rfl
    · contradiction
  · contradiction

theorem clock_enroll (hg : f.enroll a e = .ok g) (d : EngineId) :
    (g.engine d).clock = (f.engine d).clock := by
  unfold enroll at hg
  simp only at hg
  split at hg
  · split at hg
    · obtain rfl := Except.ok.inj hg
      exact part_setEngine (f := f.setStanding a (.joining e)) Engine.clock (by rfl) d
    · contradiction
  · contradiction

/-- A session that has just been opened. -/
theorem session_openSession (hb : (f.engine e).board < f.boards.length) :
    ((f.openSession a e).1.board (f.engine e).board).2.session (f.openSession a e).2.session =
      ⟨(f.member a).agent.identity, false, []⟩ := by
  rw [openSession, board_setBoard_self _ hb, Board.session_start]
  exact if_pos rfl

/-- A session is opened for an agent that has been registered. -/
theorem underway_openSession (ha : a < f.members.length) (he : e < f.engines.length)
    (hb : (f.engine e).board < f.boards.length) (hg : f.enroll a e = .ok g) :
    Underway a e (g.openSession a e).2 f (g.openSession a e).1 := by
  have henrolled := enrolled_of_enroll ha he hg
  have hboard : (g.engine e).board = (f.engine e).board := henrolled.board_engine
  have hsame : g.board (f.engine e).board = f.board (f.engine e).board := by
    rw [board, rest_enroll hg, board]
  have hopened : ((g.openSession a e).1.board (f.engine e).board).2 =
      ((f.board (f.engine e).board).2.start (f.member a).agent.identity).1 := by
    rw [openSession, hboard, board_setBoard_self _ (henrolled.boards ▸ hb), hsame, henrolled.agent]
  have hsession := session_openSession (f := g) (a := a) (e := e)
    (hboard ▸ henrolled.boards ▸ hb)
  rw [hboard, henrolled.agent] at hsession
  constructor
  case toStill => exact henrolled.toStill.trans (still_setBoard _)
  case agent => rfl
  case engine => rfl
  case members =>
    change g.members = _
    rw [rest_enroll hg]
  case fanout => exact henrolled.fanout e
  case registered => exact (henrolled.local? e _).trans (if_pos ⟨rfl, rfl⟩)
  case owner => rw [hsession]
  case current =>
    rw [hopened, Board.start, openSession, hboard, hsame]
    rfl

theorem calm_enroll (hf : f.Calm) (ha : a < f.members.length) (he : e < f.engines.length)
    (hg : f.enroll a e = .ok g) : g.Calm := by
  have henrolled := enrolled_of_enroll ha he hg
  refine hf.of_seen (fun d => congrArg Fixture.settings (henrolled.fixture d)) (clock_enroll hg)
    henrolled.remotes fun d s => ?_
  exact Nat.le_of_eq (by rw [henrolled.contact])

/-! ## Announcement and question -/

namespace Lone

variable {s : SessionId} (hl : f.Lone e)
include hl

theorem hush_announceArrival (hw : f.Awaits e s (f.member a).agent.identity)
    (hlocal : (f.engine e).directory.isLocal (f.member a).agent.identity = true) :
    f.Hush (f.announceArrival a e) := by
  rw [announceArrival_eq]
  exact hush_fresh.trans (hush_send (hush_fresh.lone hl)
    (own_presence (hw.of_frame hush_fresh.toFrame) hlocal))

theorem log_announceArrival (hw : f.Awaits e s (f.member a).agent.identity)
    (hlocal : (f.engine e).directory.isLocal (f.member a).agent.identity = true)
    (hroom : ∀ b, (f.bus b).log.length + (f.outlets e).count b ≤ (f.bus b).limit) (b : BusId) :
    ((f.announceArrival a e).bus b).log =
      (f.bus b).log ++ List.replicate ((f.outlets e).count b) (f.announcement a e) := by
  rw [announceArrival_eq]
  exact log_send (hush_fresh.lone hl) (own_presence (hw.of_frame hush_fresh.toFrame) hlocal) hroom b

/-- The announcement comes back if any gateway takes it. -/
theorem confirmed_announceArrival_of_open (hw : f.Awaits e s (f.member a).agent.identity)
    (hlocal : (f.engine e).directory.isLocal (f.member a).agent.identity = true)
    (hopen : f.outlets e ≠ []) : (f.announceArrival a e).Confirmed e s := by
  rw [announceArrival_eq]
  exact confirmed_send (hush_fresh.lone hl) (hw.of_frame hush_fresh.toFrame) hlocal hopen

theorem announceArrival_of_shut (hshut : f.outlets e = []) :
    f.announceArrival a e = f.fresh.2 := by
  rw [announceArrival_eq]
  exact send_of_shut (hush_fresh.lone hl) hshut

theorem hush_askAround
    (hlocal : (f.engine e).directory.isLocal (f.member a).agent.identity = true) :
    f.Hush (f.askAround a e) := by
  rw [askAround_eq]
  exact hush_fresh.trans (hush_send (hush_fresh.lone hl) (own_discovery hlocal))

theorem log_askAround
    (hlocal : (f.engine e).directory.isLocal (f.member a).agent.identity = true)
    (hroom : ∀ b, (f.bus b).log.length + (f.outlets e).count b ≤ (f.bus b).limit) (b : BusId) :
    ((f.askAround a e).bus b).log = (f.bus b).log ++ List.replicate ((f.outlets e).count b)
      (.discovery f.fresh.1 (f.member a).agent.identity (f.engine e).identity) := by
  rw [askAround_eq]
  exact log_send (hush_fresh.lone hl) (own_discovery hlocal) hroom b

theorem askAround_of_shut (hshut : f.outlets e = []) : f.askAround a e = f.fresh.2 := by
  rw [askAround_eq]
  exact send_of_shut (hush_fresh.lone hl) hshut

/-- The announcement and then the question. -/
theorem hush_announced (hw : f.Awaits e s (f.member a).agent.identity)
    (hlocal : (f.engine e).directory.isLocal (f.member a).agent.identity = true) :
    f.Hush ((f.announceArrival a e).askAround a e) := by
  have hheard := hl.hush_announceArrival hw hlocal
  exact hheard.trans ((hheard.lone hl).hush_askAround (hheard.isLocal.trans hlocal))

/-- The session is confirmed by what comes back, and by nothing else. -/
theorem confirmed_announced (hw : f.Awaits e s (f.member a).agent.identity)
    (hlocal : (f.engine e).directory.isLocal (f.member a).agent.identity = true)
    (hunconfirmed : ((f.board (f.engine e).board).2.session s).confirmed = false) :
    ((((f.announceArrival a e).askAround a e).board (f.engine e).board).2.session s).confirmed =
      !(f.outlets e).isEmpty := by
  have hheard := hl.hush_announceArrival hw hlocal
  cases hempty : (f.outlets e).isEmpty with
  | true =>
    have hshut := List.isEmpty_iff.1 hempty
    have hfresh := hush_fresh (f := f)
    rw [hl.announceArrival_of_shut hshut,
      (hfresh.lone hl).askAround_of_shut (hfresh.outlets.trans hshut)]
    exact hunconfirmed
  | false =>
    have hopen : f.outlets e ≠ [] := fun hnil => by simp [hnil] at hempty
    have hconfirmed := hl.confirmed_announceArrival_of_open hw hlocal hopen
    rw [Confirmed, hheard.board_engine] at hconfirmed
    have hasked := (hheard.lone hl).hush_askAround (hheard.isLocal.trans hlocal)
    exact (hasked.board _).confirmed hconfirmed

theorem announced (hw : f.Awaits e s (f.member a).agent.identity)
    (hlocal : (f.engine e).directory.isLocal (f.member a).agent.identity = true)
    (hroom : ∀ b, (f.bus b).log.length + 2 * (f.outlets e).count b ≤ (f.bus b).limit) :
    Announced a e f ((f.announceArrival a e).askAround a e) := by
  have hheard := hl.hush_announceArrival hw hlocal
  have hfirst := hl.log_announceArrival (a := a) hw hlocal fun b => by
    have := hroom b
    omega
  have hsecond := (hheard.lone hl).log_askAround (hheard.isLocal.trans hlocal) fun b => by
    have := hroom b
    rw [hfirst, hheard.outlets, hheard.limit, List.length_append, List.length_replicate]
    omega
  refine ⟨f.fresh.1, (f.announceArrival a e).fresh.1, fun b => ?_⟩
  rw [hsecond, hfirst, hheard.outlets, hheard.member, hheard.identity_engine]
  rfl

end Lone

/-! ## Up to the wait -/

/-- **A join of an engine that hears only itself, up to its wait.** Its session is confirmed by then
if any gateway has taken the announcement, and else nothing has happened in which it could be. -/
theorem Lone.beginJoin (hl : f.Lone e) (ha : a < f.members.length) (hcalm : f.Calm)
    (hg : f.enroll a e = .ok g)
    (hroom : ∀ b, (f.bus b).log.length + 2 * (f.outlets e).count b ≤ (f.bus b).limit) :
    ∃ w j, f.beginJoin a e = .ok (w, j) ∧ Underway a e j f w ∧ Announced a e f w ∧ w.Calm ∧
      f.Momentary w ∧
      ((w.board (f.engine e).board).2.session j.session).confirmed = !(f.outlets e).isEmpty := by
  have henrolled := enrolled_of_enroll ha hl.lt hg
  have hopened : Opened a e g (g.openSession a e).1 (g.openSession a e).2 :=
    opened_openSession (by rw [henrolled.board_engine, henrolled.boards]; exact hl.board)
  have hunderway := underway_openSession ha hl.lt hl.board hg
  have hbegin : f.beginJoin a e =
      .ok (((g.openSession a e).1.announceArrival a e).askAround a e, (g.openSession a e).2) := by
    rw [Fabric.beginJoin, hg]
    rfl
  have hsession := session_openSession (f := g) (a := a) (e := e)
    (henrolled.board_engine ▸ henrolled.boards ▸ hl.board)
  rw [henrolled.board_engine] at hsession
  generalize hv : (g.openSession a e).1 = v at hopened hunderway hbegin hsession
  generalize (g.openSession a e).2 = j at hopened hunderway hbegin hsession
  -- The session is open, and nothing has been sent.
  have hvl : v.Lone e := hl.of_still hunderway.toStill (by rw [← hv, rest_enroll hg]; rfl)
  have houtlets : v.outlets e = f.outlets e :=
    hunderway.toStill.outlets (by rw [← hv, rest_enroll hg]; rfl)
  have hagent : (v.member a).agent = (f.member a).agent := by
    rw [member, hopened.members, ← member, henrolled.agent]
  have hawaits : v.Awaits e j.session (v.member a).agent.identity := by
    rw [hagent, ← henrolled.agent]
    exact hopened.awaits
  have hlocal : (v.engine e).directory.isLocal (v.member a).agent.identity = true := by
    rw [hagent]
    exact Directory.isLocal_iff.2 ⟨a, hunderway.registered⟩
  have hbuses : v.buses = f.buses := by
    rw [← hv, rest_enroll hg]
    rfl
  have hvroom : ∀ b, (v.bus b).log.length + 2 * (v.outlets e).count b ≤ (v.bus b).limit := by
    intro b
    rw [bus, hbuses, houtlets]
    exact hroom b
  have hmoment : f.Momentary v := by
    rw [← hv, rest_enroll hg]
    exact ⟨rfl, rfl, rfl, rfl⟩
  have hvcalm : v.Calm := by
    have hgcalm := calm_enroll hcalm ha hl.lt hg
    rw [← hv]
    exact fun d => hgcalm d
  have hsent := hvl.hush_announced hawaits hlocal
  refine ⟨_, j, hbegin, hunderway.of_hush hsent, ?_, hsent.calm hvcalm,
    hmoment.trans hsent.momentary, ?_⟩
  · obtain ⟨x, y, hlog⟩ := hvl.announced hawaits hlocal hvroom
    refine ⟨x, y, fun b => ?_⟩
    rw [hlog, houtlets, hagent, hunderway.identity_engine, bus, hbuses, ← bus]
  · rw [← houtlets, ← hunderway.board_engine]
    refine hvl.confirmed_announced hawaits hlocal ?_
    rw [hunderway.board_engine, hsession]

/-- A join of an engine that hears only itself is over at once if any gateway takes messages, and
else has nothing to do but to wait. -/
theorem Lone.startJoin (t : ThreadId) (cutoff : Option Nat) (hl : f.Lone e)
    (ha : a < f.members.length) (hcalm : f.Calm) (hdetached : (f.member a).standing = .detached)
    (hfree : (f.engine e).directory.isLocal (f.member a).agent.identity = false)
    (hroom : ∀ b, (f.bus b).log.length + 2 * (f.outlets e).count b ≤ (f.bus b).limit) :
    ∃ w j, Underway a e j f w ∧ Announced a e f w ∧ w.Calm ∧ f.Momentary w ∧
      f.startJoin t a e cutoff =
        if (f.outlets e).isEmpty then
          w.resume t (.join j f.now (timerTime f.now (f.engine e).settings.joinTimeout.nanos)
            (cutoff.map (f.now + ·)))
        else (w.finishJoin j t, .over (.joined true 0)) := by
  have hhosts : ¬f.Hosts e (f.member a).agent.identity := by
    rw [Hosts, hfree]
    exact Bool.false_ne_true
  obtain ⟨g, hg⟩ := enroll_ok hdetached hhosts
  obtain ⟨v, j, hbegin, hv, hlog, hvcalm, hmoment, hconfirmed⟩ := hl.beginJoin ha hcalm hg hroom
  refine ⟨(v.beginWait j t).1, j, hv.beginWait hl.board t, hlog, fun d => hvcalm d,
    hmoment.trans ⟨rfl, rfl, rfl, rfl⟩, ?_⟩
  have hwait : (v.beginWait j t).2 = !(f.outlets e).isEmpty := by
    rw [Fabric.beginWait, hv.engine, hv.board_engine, ← hconfirmed, Board.wait_eq]
  have hsettings : (v.engine e).settings = (f.engine e).settings :=
    congrArg Fixture.settings (hv.fixture e)
  have hafter : ((v.beginWait j t).1.engine e).settings = (v.engine e).settings := rfl
  have hnow : (v.beginWait j t).1.now = f.now := hmoment.now
  simp only [Fabric.startJoin, hbegin, hwait, hafter, hsettings, hnow]
  cases (f.outlets e).isEmpty <;> rfl

end Fabric

end Overlay
