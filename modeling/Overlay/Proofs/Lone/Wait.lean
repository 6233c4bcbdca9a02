import Overlay.Proofs.Lone.Doze
import Overlay.Proofs.Schedules
import Overlay.Proofs.Tasks

/-!
# Waiting while nothing happens

A thread that waits for a join that nothing confirms is over when its time is (`Waits.ends`), however
many liveness passes are made in the meantime. A task of a moment makes no other one ready, so the
tasks of a moment come to an end (`Waits.settles`); and from one moment to the next less is ahead
(`Waits.elapses`).
-/

namespace Overlay

namespace Fabric

variable {f : Fabric} {j : Join}

/-! ## The end of a wait -/

theorem calm_finishJoin (hf : f.Calm) (t : ThreadId) : (f.finishJoin j t).Calm := by
  have hafter : (f.releaseSession j t).Alike (f.finishJoin j t) := alike_attach
  have hclock : ∀ d, ((f.finishJoin j t).engine d).clock = (f.engine d).clock :=
    part_setEngine (f := f.releaseSession j t) Engine.clock (by rfl)
  refine hf.of_seen (fun d => congrArg Fixture.settings (hafter.fixture d)) hclock
    (fun d => congrArg Directory.remotes (hafter.directory d)) fun d s => ?_
  rw [hafter.directory]
  exact Nat.le_refl _

end Fabric

namespace Schedule

open Fabric

variable {s r : Schedule} {w : Fabric} {j : Join} {start time : Nat} {t : Task} {rest : List Task}
  {x : Thread} {endings : List Ending}

/-! ## Turns -/

/-- What every task keeps, by which no other one becomes ready, holds when none is left. -/
theorem exists_settleWithin? {P : Schedule → Prop}
    (hturn : ∀ s t rest, P s → s.fabric.ready = t :: rest →
      P (s.turn t rest) ∧ (s.turn t rest).fabric.ready = rest)
    (h : P s) : ∃ n r, settleWithin? n s = some r ∧ P r := by
  induction hready : s.fabric.ready generalizing s with
  | nil => exact ⟨0, s, by simp [settleWithin?, hready], h⟩
  | cons t rest ih =>
    obtain ⟨hnext, hrest⟩ := hturn s t rest h hready
    obtain ⟨n, r, hr, hlast⟩ := ih hnext hrest
    exact ⟨n + 1, r, (settleWithin?_turn hready n).trans hr, hlast⟩

/-- The only thread has no plans left. -/
theorem finish_alone (hthreads : s.threads = [x]) (hparent : x.parent = none) :
    s.finish 0 endings = ⟨s.fabric, [⟨none, [], none, endings⟩]⟩ := by
  rw [finish_of_parent (congrArg (·[0]?) hthreads) hparent, hthreads]
  rfl

/-- The only thread waits for a join whose time is over. -/
theorem advance_of_due
    (hthreads : s.threads = [⟨none, [], some (.command (.join j start time none)), []⟩])
    (hnow : s.fabric.now = time) (hconfirmed : s.fabric.confirmed.contains 0 = false) :
    s.advance 0 = ⟨(s.fabric.clearTimers (.thread 0)).finishJoin j 0,
      [⟨none, [], none, [.one (.joined false (time - start))]⟩]⟩ := by
  have hthread : s.thread 0 = ⟨none, [], some (.command (.join j start time none)), []⟩ := by
    simp [thread, hthreads]
  have hresume : (s.fabric.clearTimers (.thread 0)).resume 0 (.join j start time none) =
      ((s.fabric.clearTimers (.thread 0)).finishJoin j 0, .over (.joined false (time - start))) := by
    have hcontains : (s.fabric.clearTimers (.thread 0)).confirmed.contains 0 = false := hconfirmed
    have hclock : (s.fabric.clearTimers (.thread 0)).now = time := hnow
    simp only [resume, hcontains, hclock, Bool.false_eq_true, if_false, Nat.le_refl, if_true]
  simp only [advance, hthread, hresume, proceed]
  exact finish_alone (s := s.withFabric _) hthreads rfl

/-- The only thread is over, and has been woken again. -/
theorem advance_of_over (hthreads : s.threads = [⟨none, [], none, endings⟩]) :
    s.advance 0 = ⟨s.fabric.clearTimers (.thread 0), s.threads⟩ := by
  have hthread : s.thread 0 = ⟨none, [], none, endings⟩ := by simp [thread, hthreads]
  simp only [advance, hthread, proceed]
  rw [finish_alone (s := s.withFabric (s.fabric.clearTimers (.thread 0))) hthreads rfl, hthreads]
  rfl

/-! ## Waiting -/

/-- The only thread waits for a join, up to a time at which it will look again. -/
structure Waits (w : Fabric) (j : Join) (start time : Nat) (s : Schedule) : Prop where
  doze : w.Doze s.fabric
  threads : s.threads = [⟨none, [], some (.command (.join j start time none)), []⟩]
  now : s.fabric.now ≤ time
  ready : ∀ t ∈ s.fabric.ready, (∃ d, t = .liveness d) ∨ t = .thread 0 ∧ s.fabric.now = time
  timers : ∀ x ∈ s.fabric.timers, (∃ d, x.2 = .liveness d) ∨ x = (time, .thread 0)
  alarm : (time, .thread 0) ∈ s.fabric.timers ∨ .thread 0 ∈ s.fabric.ready

/-- The only thread has waited for a join in vain, and is over. -/
structure Ended (w : Fabric) (j : Join) (start time : Nat) (s : Schedule) : Prop where
  finished : ∃ g, w.Doze g ∧ (g.finishJoin j 0).Doze s.fabric
  threads : s.threads = [⟨none, [], none, [.one (.joined false (time - start))]⟩]
  now : s.fabric.now = time
  ready : ∀ t ∈ s.fabric.ready, (∃ d, t = .liveness d) ∨ t = .thread 0

/-- Nothing has happened but that a task has been taken. -/
theorem doze_taken (s : Schedule) (rest : List Task) :
    s.fabric.Doze (s.withFabric { s.fabric with ready := rest }).fabric :=
  ⟨rfl, rfl, fun _ => rfl⟩

theorem Ended.turn (h : s.Ended w j start time) (hcalm : w.Calm)
    (hready : s.fabric.ready = t :: rest) :
    (s.turn t rest).Ended w j start time ∧ (s.turn t rest).fabric.ready = rest := by
  obtain ⟨g, hg, hdoze⟩ := h.finished
  have hdoze := hdoze.trans (doze_taken s rest)
  have hleft : ∀ u ∈ rest, (∃ d, u = .liveness d) ∨ u = .thread 0 := fun u hu =>
    h.ready u (by simp [hready, hu])
  rcases h.ready t (by simp [hready]) with ⟨d, rfl⟩ | rfl
  · have hcalm := hdoze.calm (calm_finishJoin (hg.calm hcalm) 0)
    have hrest : (s.turn (.liveness d) rest).fabric.ready = rest := ready_tick hcalm d
    refine ⟨⟨⟨g, hg, hdoze.trans (doze_tick hcalm d)⟩, h.threads, (now_tick hcalm d).trans h.now,
      ?_⟩, hrest⟩
    rwa [hrest]
  · have hover : s.turn (.thread 0) rest =
        ⟨Fabric.clearTimers { s.fabric with ready := rest } (.thread 0), s.threads⟩ :=
      advance_of_over (s := s.withFabric _) h.threads
    rw [hover]
    exact ⟨⟨⟨g, hg, hdoze.trans ⟨rfl, rfl, fun _ => rfl⟩⟩, h.threads, h.now, hleft⟩, rfl⟩

/-- A pass that has nothing to do does not end a wait. -/
theorem Waits.tick (h : s.Waits w j start time) (hcalm : w.Calm) {d : EngineId}
    (hready : s.fabric.ready = .liveness d :: rest) :
    (s.turn (.liveness d) rest).Waits w j start time ∧
      (s.turn (.liveness d) rest).fabric.ready = rest := by
  have hdoze := h.doze.trans (doze_taken s rest)
  have hcalm := hdoze.calm hcalm
  have hnow : (s.turn (.liveness d) rest).fabric.now = s.fabric.now := now_tick hcalm d
  have hrest : (s.turn (.liveness d) rest).fabric.ready = rest := ready_tick hcalm d
  refine ⟨?_, hrest⟩
  constructor
  case doze => exact hdoze.trans (doze_tick hcalm d)
  case threads => exact h.threads
  case now => rw [hnow]; exact h.now
  case ready =>
    rw [hrest, hnow]
    exact fun u hu => h.ready u (by simp [hready, hu])
  case timers =>
    intro x hx
    rcases mem_timers_tick hcalm hx with hx | hx
    · exact h.timers x hx
    · exact .inl ⟨d, hx⟩
  case alarm =>
    refine h.alarm.imp (fun halarm => timers_subset_tick hcalm d halarm) fun halarm => ?_
    rw [hready] at halarm
    rw [hrest]
    simpa using halarm

/-- A thread that waits is over when its time is. -/
theorem Waits.due (h : s.Waits w j start time) (hconfirmed : 0 ∉ w.confirmed)
    (hready : s.fabric.ready = .thread 0 :: rest) (hnow : s.fabric.now = time) :
    (s.turn (.thread 0) rest).Ended w j start time ∧
      (s.turn (.thread 0) rest).fabric.ready = rest := by
  have hnoticed : s.fabric.confirmed.contains 0 = false := by
    rw [h.doze.rest]
    simpa using hconfirmed
  have hover : s.turn (.thread 0) rest =
      ⟨(Fabric.clearTimers { s.fabric with ready := rest } (.thread 0)).finishJoin j 0,
        [⟨none, [], none, [.one (.joined false (time - start))]⟩]⟩ :=
    advance_of_due (s := s.withFabric _) h.threads hnow hnoticed
  rw [hover]
  refine ⟨⟨⟨Fabric.clearTimers { s.fabric with ready := rest } (.thread 0),
    h.doze.trans ⟨rfl, rfl, fun _ => rfl⟩, .refl _⟩, rfl, hnow, fun u hu => ?_⟩, rfl⟩
  exact (h.ready u (by rw [hready]; exact List.mem_cons_of_mem _ hu)).imp_right And.left

theorem Waits.turn (h : s.Waits w j start time) (hcalm : w.Calm) (hconfirmed : 0 ∉ w.confirmed)
    (hready : s.fabric.ready = t :: rest) :
    ((s.turn t rest).Ended w j start time ∨ (s.turn t rest).Waits w j start time ∧
      (s.turn t rest).fabric.ahead time ≤ s.fabric.ahead time) ∧
        (s.turn t rest).fabric.ready = rest := by
  rcases h.ready t (by simp [hready]) with ⟨d, rfl⟩ | ⟨rfl, hnow⟩
  · have hahead : (s.turn (.liveness d) rest).fabric.ahead time ≤ s.fabric.ahead time :=
      ahead_tick_le ((h.doze.trans (doze_taken s rest)).calm hcalm) d time
    obtain ⟨hnext, hrest⟩ := h.tick hcalm hready
    exact ⟨.inr ⟨hnext, hahead⟩, hrest⟩
  · exact (h.due hconfirmed hready hnow).imp_left .inl

/-- The tasks of a moment. -/
theorem Waits.settles (h : s.Waits w j start time) (hcalm : w.Calm) (hconfirmed : 0 ∉ w.confirmed) :
    ∃ n r, settleWithin? n s = some r ∧ (r.Ended w j start time ∨
      r.Waits w j start time ∧ r.fabric.ahead time ≤ s.fabric.ahead time) := by
  refine exists_settleWithin? (P := fun r => r.Ended w j start time ∨
    r.Waits w j start time ∧ r.fabric.ahead time ≤ s.fabric.ahead time) ?_
    (.inr ⟨h, Nat.le_refl _⟩)
  rintro v t rest (hv | ⟨hv, hahead⟩) hready
  · exact (hv.turn hcalm hready).imp_left .inl
  · obtain ⟨hnext, hrest⟩ := hv.turn hcalm hconfirmed hready
    exact ⟨hnext.imp_right fun hnext => ⟨hnext.1, Nat.le_trans hnext.2 hahead⟩, hrest⟩

/-- The next moment comes no later than the end of the wait, and then less is ahead. -/
theorem Waits.elapses (h : s.Waits w j start time) (hready : s.fabric.ready = []) :
    ∃ moment, s.nextTime? = some moment ∧ (s.elapseTo moment).Waits w j start time ∧
      (s.elapseTo moment).fabric.ahead time < s.fabric.ahead time := by
  have halarm : (time, .thread 0) ∈ s.fabric.timers :=
    h.alarm.resolve_right (by simp [hready])
  obtain ⟨moment, hmoment⟩ : ∃ moment, s.nextTime? = some moment :=
    Option.isSome_iff_exists.1 (List.isSome_min?_of_mem (List.mem_map.2 ⟨_, halarm, rfl⟩))
  obtain ⟨hmem, hleast⟩ := List.min?_eq_some_iff.1 hmoment
  obtain ⟨first, hfirst, rfl⟩ := List.mem_map.1 hmem
  have hle : first.1 ≤ time := hleast _ (List.mem_map.2 ⟨_, halarm, rfl⟩)
  obtain ⟨ready, hwoken, hready'⟩ : ∃ ready,
      (s.fabric.timers.filter (·.1 ≤ first.1)).foldl (fun f d => f.wake d.2) { s.fabric with
        now := max s.fabric.now first.1, timers := s.fabric.timers.filter (first.1 < ·.1) } =
      { s.fabric with
        now := max s.fabric.now first.1, timers := s.fabric.timers.filter (first.1 < ·.1),
        ready := ready } ∧
      ∀ t, t ∈ ready ↔ t ∈ s.fabric.ready ∨
        t ∈ (s.fabric.timers.filter (·.1 ≤ first.1)).map Prod.snd :=
    ⟨_, foldl_wake _ _, fun _ => mem_enqueued⟩
  have hafter : s.elapseTo first.1 = s.withFabric { s.fabric with
      now := max s.fabric.now first.1, timers := s.fabric.timers.filter (first.1 < ·.1),
      ready := ready } := congrArg s.withFabric hwoken
  have hnow := h.now
  refine ⟨first.1, hmoment, ?_⟩
  rw [hafter]
  refine ⟨⟨?_, h.threads, ?_, ?_, ?_, ?_⟩, ?_⟩
  · exact h.doze.trans ⟨rfl, rfl, fun _ => rfl⟩
  · exact Nat.max_le.2 ⟨hnow, hle⟩
  · intro t ht
    rcases (hready' t).1 ht with ht | ht
    · rw [hready] at ht
      contradiction
    · obtain ⟨x, hx, rfl⟩ := List.mem_map.1 ht
      obtain ⟨hx, hdue⟩ := List.mem_filter.1 hx
      refine (h.timers x hx).imp_right fun hx => ?_
      subst hx
      have hdue : time ≤ first.1 := of_decide_eq_true hdue
      exact ⟨rfl, show max s.fabric.now first.1 = time by omega⟩
  · exact fun x hx => h.timers x (List.mem_of_mem_filter hx)
  · by_cases hlater : first.1 < time
    · exact .inl (List.mem_filter.2 ⟨halarm, decide_eq_true hlater⟩)
    · refine .inr ((hready' _).2 (.inr (List.mem_map.2 ⟨_, List.mem_filter.2 ⟨halarm, ?_⟩, rfl⟩)))
      exact decide_eq_true (Nat.le_of_not_lt hlater)
  · -- The timer that fires is ahead no longer.
    have hsplit := List.countP_eq_countP_filter_add s.fabric.timers
      (fun x => decide (x.1 ≤ time)) fun x => decide (first.1 < x.1)
    have hfires : 0 < (s.fabric.timers.filter fun x => !decide (first.1 < x.1)).countP
        fun x => decide (x.1 ≤ time) := by
      refine List.countP_pos_iff.2 ⟨first, List.mem_filter.2 ⟨hfirst, by simp⟩, ?_⟩
      exact decide_eq_true hle
    have hsame : ∀ d, Fabric.engine { s.fabric with
        now := max s.fabric.now first.1, timers := s.fabric.timers.filter (first.1 < ·.1),
        ready := ready } d = s.fabric.engine d := fun _ => rfl
    simp only [ahead, withFabric, hsame]
    omega

theorem Ended.isOver (h : s.Ended w j start time) : s.isOver = true := by
  simp [Schedule.isOver, h.threads, Thread.isOver]

theorem Waits.not_isOver (h : s.Waits w j start time) : s.isOver = false := by
  simp [Schedule.isOver, h.threads, Thread.isOver]

/-- **A wait that nothing confirms comes to its end at its time.** -/
theorem Waits.ends (h : s.Waits w j start time) (hcalm : w.Calm) (hconfirmed : 0 ∉ w.confirmed) :
    ∃ n r, complete? n n s = some r ∧ r.Ended w j start time := by
  induction hn : s.fabric.ahead time using Nat.strong_induction_on generalizing s with
  | _ n ih =>
    obtain ⟨p, r, hr, hend | ⟨hwait, hle⟩⟩ := h.settles hcalm hconfirmed
    · refine ⟨p + 1, r, ?_, hend⟩
      have hsettled := settleWithin?_mono hr (Nat.le_succ p)
      simp [complete?, hsettled, hend.isOver]
    · obtain ⟨moment, hmoment, hlater, hlt⟩ := hwait.elapses (ready_of_settleWithin? hr)
      obtain ⟨q, v, hv, hend⟩ := ih _ (by omega) hlater rfl
      refine ⟨max p q + 1, v, ?_, hend⟩
      have hsettled := settleWithin?_mono hr (Nat.le_trans (Nat.le_max_left p q) (Nat.le_succ _))
      have hcompleted := complete?_mono hv (Nat.le_trans (Nat.le_max_right p q) (Nat.le_succ _))
        (Nat.le_max_right p q)
      simp [complete?, hsettled, hwait.not_isOver, hmoment, hcompleted]

end Schedule

end Overlay
