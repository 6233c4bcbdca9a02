import Overlay.Proofs.Lone.Wait
import Overlay.Proofs.Mesh.Run

/-!
# How a join ends without anybody else

A join that is carried out while nothing else goes on, by an engine that hears only itself, from its
beginning to its end. It is confirmed at once if one gateway takes messages, and otherwise it is over
when its time is; the agent is attached either way.
-/

namespace Overlay

namespace Schedule

variable {s r : Schedule} {t : Task} {rest : List Task} {p n : Nat}

/-- What is completed after one task more. -/
theorem complete?_of_turn (hready : s.fabric.ready = t :: rest)
    (h : complete? p n (s.turn t rest) = some r) : complete? (p + 1) n s = some r := by
  cases n with
  | zero => contradiction
  | succ n =>
    simp only [complete?, Option.bind_eq_bind] at h ⊢
    obtain ⟨v, hv, h⟩ := Option.bind_eq_some_iff.1 h
    rw [settleWithin?_turn hready, hv, Option.bind_some]
    split at h
    · next hover => rw [if_pos hover]; exact h
    · next hover =>
      obtain ⟨moment, hmoment, h⟩ := Option.bind_eq_some_iff.1 h
      rw [if_neg hover, hmoment, Option.bind_some]
      exact complete?_mono h (Nat.le_succ p) (Nat.le_refl n)

end Schedule

namespace Fabric

variable {f g w : Fabric} {a : AgentId} {e : EngineId} {j : Join} {c : Command} {outcome : Outcome}
  {start time : Nat}

/-! ## Carrying out one command -/

/-- Nothing goes on: no task is ready, and no timer fires but those of liveness passes, which find
nothing to do. -/
structure Lull (f : Fabric) : Prop where
  ready : f.ready = []
  timers : ∀ x ∈ f.timers, ∃ d, x.2 = .liveness d
  confirmed : f.confirmed = []
  calm : f.Calm

theorem Lull.clearTimers (hf : f.Lull) (t : ThreadId) : f.clearTimers (.thread t) = f := by
  have hkept : f.timers.filter (·.2 ≠ .thread t) = f.timers := by
    refine List.filter_eq_self.2 fun x hx => ?_
    obtain ⟨d, hd⟩ := hf.timers x hx
    simp [hd]
  rw [Fabric.clearTimers, hkept]

/-- The threads at work when a command is to be carried out. -/
def opening (f : Fabric) (c : Command) : Schedule :=
  ⟨f.wakeFirst [.thread 0], [Thread.begin none f.now [(0, .one c)]]⟩

theorem play?_of_complete? {n : Nat} {r : Schedule} {ending : Ending}
    (hr : Schedule.complete? n n (f.opening c) = some r)
    (hthreads : r.threads = [⟨none, [], none, [ending]⟩]) (p : Nat) (hp : n ≤ p) :
    f.play? p (.one c) = some (r.fabric, ending) := by
  have hcompleted := Schedule.complete?_mono hr hp hp
  have hthread : r.thread 0 = ⟨none, [], none, [ending]⟩ := by simp [Schedule.thread, hthreads]
  change (Schedule.complete? p p (f.opening c)).bind _ = _
  rw [hcompleted, Option.bind_some, hthread]
  rfl

theorem ready_opening (hf : f.Lull) (c : Command) :
    (f.opening c).fabric.ready = [.thread 0] := by
  simp [opening, wakeFirst, hf.ready]

/-- The first task is the one that begins the command. -/
theorem turn_opening (hf : f.Lull) (c : Command) : (f.opening c).turn (.thread 0) [] =
    Schedule.proceed ⟨f, [Thread.begin none f.now [(0, .one c)]]⟩ 0 [] [(f.now, .one c)] := by
  have hclear : Fabric.clearTimers { f.wakeFirst [.thread 0] with ready := [] } (.thread 0) = f := by
    have hsame : ({ f.wakeFirst [.thread 0] with ready := [] } : Fabric) = f := by
      rw [wakeFirst, ← hf.ready]
    rw [hsame, hf.clearTimers]
  change (Schedule.mk (Fabric.clearTimers { f.wakeFirst [.thread 0] with ready := [] } (.thread 0))
    [Thread.begin none f.now [(0, .one c)]]).proceed 0 [] [(f.now, .one c)] = _
  rw [hclear]

/-- A command that is over at once. -/
theorem play?_of_over (hf : f.Lull) (hstart : f.start 0 c = (g, .over outcome))
    (hg : g.ready = []) (p : Nat) (hp : 1 ≤ p) :
    f.play? p (.one c) = some (g, .one outcome) := by
  have hturn : (f.opening c).turn (.thread 0) [] = ⟨g, [⟨none, [], none, [.one outcome]⟩]⟩ := by
    rw [turn_opening hf]
    simp only [Schedule.proceed, Nat.lt_irrefl, if_false, hstart]
    exact Schedule.finish_alone (s := ⟨g, _⟩) rfl rfl
  refine play?_of_complete? (r := ⟨g, [⟨none, [], none, [.one outcome]⟩]⟩) ?_ rfl p hp
  refine Schedule.complete?_of_turn (ready_opening hf c) ?_
  rw [hturn]
  simp [Schedule.complete?, Schedule.settleWithin?, hg, Schedule.isOver, Thread.isOver]

/-- A command that has come to wait for a join. -/
theorem waits_of_paused (hf : f.Lull) (hw : f.Momentary w) (hle : f.now ≤ time)
    (hstart : f.start 0 c = (w, .paused (.join j start time none))) :
    ((f.opening c).turn (.thread 0) []).Waits w j start time := by
  have hturn : (f.opening c).turn (.thread 0) [] = ⟨w.setTimer time (.thread 0),
      [⟨none, [], some (.command (.join j start time none)), []⟩]⟩ := by
    rw [turn_opening hf]
    simp only [Schedule.proceed, Nat.lt_irrefl, if_false, hstart]
    rfl
  rw [hturn]
  constructor
  case doze => exact ⟨rfl, rfl, fun _ => rfl⟩
  case threads => rfl
  case now => exact Nat.le_trans (Nat.le_of_eq hw.now) hle
  case ready =>
    intro t ht
    have ht : t ∈ w.ready := ht
    rw [hw.ready, hf.ready] at ht
    contradiction
  case timers =>
    intro x hx
    rcases List.mem_append.1 hx with hx | hx
    · exact .inl (hf.timers x (hw.timers ▸ hx))
    · exact .inr (List.mem_singleton.1 hx)
  case alarm => exact .inl (List.mem_append_right _ List.mem_cons_self)

/-! ## The join -/

/-- How long a join of whole milliseconds takes: no time if a gateway takes messages. -/
def joinTime (f : Fabric) (e : EngineId) (millis : Nat) : Nat :=
  if (f.outlets e).isEmpty then millis else 0

/-- A join that has to wait is over when its time is, be it none at all. -/
theorem play?_of_resume (hf : f.Lull) (hw : f.Momentary w) (hcalm : w.Calm) (millis : Nat)
    (hstart : f.start 0 c = w.resume 0 (.join j f.now (f.now + millis) none)) :
    ∃ patience x g, (∀ p ≥ patience,
        f.play? p (.one c) = some (g, .one (.joined false millis))) ∧
      g.now = f.now + millis ∧ w.Doze x ∧ (x.finishJoin j 0).Doze g := by
  have hnotice : 0 ∉ w.confirmed := by simp [hw.confirmed, hf.confirmed]
  have hready : (w.finishJoin j 0).ready = [] := hw.ready.trans hf.ready
  by_cases hmillis : millis = 0
  · subst hmillis
    have hover : f.start 0 c = (w.finishJoin j 0, .over (.joined false 0)) := by
      rw [hstart]
      simp [resume, hnotice, hw.now]
    exact ⟨1, w, w.finishJoin j 0, play?_of_over hf hover hready, hw.now, .refl w, .refl _⟩
  · have hpaused : f.start 0 c = (w, .paused (.join j f.now (f.now + millis) none)) := by
      rw [hstart]
      simp [resume, hnotice, hw.now, earliest, hmillis]
    have hwaits := waits_of_paused hf hw (Nat.le_add_right _ _) hpaused
    obtain ⟨n, r, hr, hend⟩ := hwaits.ends hcalm hnotice
    obtain ⟨x, hx, hdoze⟩ := hend.finished
    have hthreads := hend.threads
    rw [Nat.add_sub_cancel_left] at hthreads
    have hcompleted := Schedule.complete?_of_turn (ready_opening hf c)
      (Schedule.complete?_mono hr (Nat.le_refl n) (Nat.le_succ n))
    exact ⟨n + 1, x, r.fabric, play?_of_complete? hcompleted hthreads, hend.now, hx, hdoze⟩

theorem play?_join (hl : f.Lone e) (hf : f.Lull) (ha : a < f.members.length)
    (hdetached : (f.member a).standing = .detached)
    (hfree : (f.engine e).directory.isLocal (f.member a).agent.identity = false) (millis : Nat)
    (htimeout : (f.engine e).settings.joinTimeout.nanos = millis * nanosPerTick)
    (hroom : ∀ b, (f.bus b).log.length + 2 * (f.outlets e).count b ≤ (f.bus b).limit) :
    ∃ patience g, (∀ p ≥ patience, f.play? p (.one (.join a e none)) =
        some (g, .one (.joined (!(f.outlets e).isEmpty) (f.joinTime e millis)))) ∧
      g.now = f.now + f.joinTime e millis ∧ Completes a e f g := by
  obtain ⟨w, j, hw, hlog, hcalm, hmoment, hstart⟩ :=
    hl.startJoin 0 none ha hf.calm hdetached hfree hroom
  have hstart : f.start 0 (.join a e none) = _ := hstart
  rw [htimeout, timerTime, firingTime_mul] at hstart
  cases hempty : (f.outlets e).isEmpty with
  | true =>
    simp only [hempty, if_true] at hstart
    obtain ⟨patience, x, g, hplay, hnow, hx, hg⟩ := play?_of_resume hf hmoment hcalm millis hstart
    have hdone := (hx.underway hw).completes (hx.announced hlog) ha hl.board 0
    refine ⟨patience, g, ?_, ?_, hg.completes hdone⟩
    · simpa [joinTime, hempty] using hplay
    · simpa [joinTime, hempty] using hnow
  | false =>
    simp only [hempty, Bool.false_eq_true, if_false] at hstart
    have hready : (w.finishJoin j 0).ready = [] := hmoment.ready.trans hf.ready
    refine ⟨1, w.finishJoin j 0, ?_, ?_, hw.completes hlog ha hl.board 0⟩
    · simpa [joinTime, hempty] using play?_of_over hf hstart hready
    · rw [joinTime, hempty]
      exact hmoment.now

/-- A join of an agent under whose identity somebody is registered is refused. -/
theorem play?_join_registered (hf : f.Lull) (hdetached : (f.member a).standing = .detached)
    (hlocal : (f.engine e).directory.isLocal (f.member a).agent.identity = true) (p : Nat)
    (hp : 1 ≤ p) : f.play? p (.one (.join a e none)) = some (f, .one (.failed (.joinFailed
      ((f.member a).agent.identity.display ++ " is already registered with " ++
        (f.engine e).identity.display)))) := by
  have hrefused : f.enroll a e =
      .error (.alreadyRegistered (f.member a).agent.identity (f.engine e).identity) := by
    have hcontains : (f.engine e).directory.locals.contains (f.member a).agent.identity = true :=
      hlocal
    simp [enroll, hdetached, Directory.insertLocal?, Register.add?, hcontains]
  have hstart : f.start 0 (.join a e none) = _ := startJoin_of_refused hrefused
  exact play?_of_over hf hstart hf.ready p hp

/-- **A join through loopback gateways from its beginning to its end.** An agent whose identity is
free is attached in any case: at once and confirmed if any gateway takes messages, and else
unconfirmed after exactly the time that the engine waits. An agent under whose identity somebody is
registered is refused, and nothing changes. -/
theorem join_over_loopback (hl : f.Lone e) (hf : f.Lull) (ha : a < f.members.length)
    (hdetached : (f.member a).standing = .detached) (millis : Nat)
    (htimeout : (f.engine e).settings.joinTimeout.nanos = millis * nanosPerTick)
    (hroom : ∀ b, (f.bus b).log.length + 2 * (f.outlets e).count b ≤ (f.bus b).limit) :
    ((f.engine e).directory.isLocal (f.member a).agent.identity = false →
      ∃ patience g, (∀ p ≥ patience, f.play? p (.one (.join a e none)) =
          some (g, .one (.joined (!(f.outlets e).isEmpty) (f.joinTime e millis)))) ∧
        g.now = f.now + f.joinTime e millis ∧ Completes a e f g ∧
        ((f.board (f.engine e).board).2.current.get? (f.member a).agent.identity = none →
          (g.board (g.engine e).board).2.current = (f.board (f.engine e).board).2.current)) ∧
    ((f.engine e).directory.isLocal (f.member a).agent.identity = true →
      ∀ p ≥ 1, f.play? p (.one (.join a e none)) = some (f, .one (.failed (.joinFailed
        ((f.member a).agent.identity.display ++ " is already registered with " ++
          (f.engine e).identity.display))))) := by
  constructor
  · intro hfree
    obtain ⟨patience, g, hplay, hnow, hdone⟩ :=
      play?_join hl hf ha hdetached hfree millis htimeout hroom
    exact ⟨patience, g, hplay, hnow, hdone, hdone.pending_eq⟩
  · exact fun hlocal => play?_join_registered hf hdetached hlocal

/-- An engine with two sockets on one bus, which work or are failing, and a closed one on another bus.
It has heard of a contact lately. Of the three agents the last one is attached to it, and one has the
same identity. -/
def loft (failing : Bool) : Fabric :=
  { empty 0 with
    buses := [⟨[⟨"lan", [0], false, failing⟩, ⟨"spare", [0], false, failing⟩], [], 4096⟩,
      ⟨[⟨"wan", [0], true, false⟩], [], 4096⟩]
    gateways := [⟨"lan", .socket 0 0⟩, ⟨"spare", .socket 0 1⟩, ⟨"wan", .socket 1 0⟩]
    boards := [(.echo, .empty)]
    engines := [⟨.cloud default, ⟨.ofMillis 60000, 3, .ofMillis 50, .inline⟩, [0, 1, 2], 0,
      { Directory.empty.announce (.agent (.ofNat 9)) .empty 80 with
        locals := Register.empty.enter (.agent (.ofNat 2)) 2 },
      ((Fanout.empty .inline).subscribe (.responder 2 (.cloud default))).1, 100, some 30000000000,
      true⟩]
    members := [⟨⟨.agent (.ofNat 1), .empty⟩, .detached⟩, ⟨⟨.agent (.ofNat 2), .empty⟩, .detached⟩,
      ⟨⟨.agent (.ofNat 2), .empty⟩, .joined 0 0⟩]
    timers := [(30000, .liveness 0)] }

theorem lone_loft (failing : Bool) : (loft failing).Lone 0 where
  present := rfl
  board := by decide +revert
  criterion := rfl
  loopback := by
    intro x hx
    have hx : x ∈ [0, 1, 2] := hx
    simp only [List.mem_cons, List.not_mem_nil, or_false] at hx
    rcases hx with rfl | rfl | rfl
    · exact ⟨0, 0, rfl, by decide +revert, by decide +revert, by decide +revert⟩
    · exact ⟨0, 1, rfl, by decide +revert, by decide +revert, by decide +revert⟩
    · exact ⟨1, 0, rfl, by decide +revert, by decide +revert, by decide +revert⟩

theorem lull_loft (failing : Bool) : (loft failing).Lull where
  ready := rfl
  timers := fun x hx => ⟨0, by rw [List.mem_singleton.1 hx]⟩
  confirmed := rfl
  calm := by
    intro d c hc
    cases d with
    | zero =>
      have hc : c ∈ [(Identity.agent (.ofNat 9), 0)] := hc
      rw [List.mem_singleton.1 hc]
      decide +revert
    | succ d => exact absurd hc List.not_mem_nil

theorem room_loft (failing : Bool) (b : BusId) : ((loft failing).bus b).log.length +
    2 * ((loft failing).outlets 0).count b ≤ ((loft failing).bus b).limit := by
  have houtlets : (loft failing).outlets 0 = if failing then [] else [0, 0] := by decide +revert
  match b with
  | 0 => decide +revert
  | 1 => decide +revert
  | b + 2 =>
    have hnone : (loft failing).bus (b + 2) = default := rfl
    have hcount : ((loft failing).outlets 0).count (b + 2) = 0 := by
      rw [houtlets]
      split <;> simp
    rw [hnone, hcount]
    decide

theorem join_over_loopback_loft :
    (∃ patience g, (∀ p ≥ patience, (loft false).play? p (.one (.join 0 0 none)) =
        some (g, .one (.joined true 0))) ∧ g.now = 0 ∧ Completes 0 0 (loft false) g ∧
      (g.board (g.engine 0).board).2.current = ((loft false).board 0).2.current) ∧
    (∃ patience g, (∀ p ≥ patience, (loft true).play? p (.one (.join 0 0 none)) =
        some (g, .one (.joined false 50))) ∧ g.now = 50 ∧ Completes 0 0 (loft true) g ∧
      (g.board (g.engine 0).board).2.current = ((loft true).board 0).2.current) ∧
    ∃ text, ∀ p ≥ 1, (loft false).play? p (.one (.join 1 0 none)) =
      some (loft false, .one (.failed (.joinFailed text))) := by
  refine ⟨?_, ?_, ?_⟩
  · obtain ⟨patience, g, hplay, hnow, hdone, hpending⟩ := (join_over_loopback (a := 0)
      (lone_loft false) (lull_loft false) (by decide) rfl 50 rfl (room_loft false)).1 (by decide)
    exact ⟨patience, g, hplay, hnow, hdone, hpending rfl⟩
  · obtain ⟨patience, g, hplay, hnow, hdone, hpending⟩ := (join_over_loopback (a := 0)
      (lone_loft true) (lull_loft true) (by decide) rfl 50 rfl (room_loft true)).1 (by decide)
    exact ⟨patience, g, hplay, hnow, hdone, hpending rfl⟩
  · exact ⟨_, (join_over_loopback (a := 1) (lone_loft false) (lull_loft false)
      (by decide) rfl 50 rfl (room_loft false)).2 (by decide)⟩

end Fabric

end Overlay
