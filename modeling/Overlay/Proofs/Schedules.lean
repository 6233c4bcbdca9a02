import Mathlib.Data.List.Basic
import Mathlib.Logic.Function.Basic
import Overlay.Fabric.Schedule

/-!
# What schedules keep

Threads do nothing but begin commands and resume them; apart from that a schedule runs tasks and
lets time pass. So what is to be shown of everything that is played is a relation between the fabric
and the joins for which threads wait, and that these few things keep it (`Fabric.Lasting`). When all
threads are over none waits for a join.
-/

namespace Overlay

inductive Plan.All (P : Command → Prop) : Plan → Prop
  | one {c : Command} (hc : P c) : All P (.one c)
  | together {threads : List (List (Nat × Plan))}
      (hthreads : ∀ plans ∈ threads, ∀ p ∈ plans, All P p.2) : All P (.together threads)

/-- The join for which a command waits that has come so far. -/
def Progress.join? : Progress → Option Join
  | .paused (.join j _ _ _) => some j
  | .paused (.rest _) | .over _ => none

def Wait.join? : Option Wait → Option Join
  | some (.command pause) => (Progress.paused pause).join?
  | some (.threads _) | none => none

namespace Fabric

/-- What a command is about exists. -/
def Admits (f : Fabric) : Command → Prop
  | .join a e _ => a < f.members.length ∧ e < f.engines.length
  | _ => True

/-- Only time and tasks differ, and what waiting threads have noticed. -/
structure Idle (f g : Fabric) : Prop where
  engines : g.engines = f.engines
  members : g.members = f.members
  boards : g.boards = f.boards

theorem Idle.trans {f g h : Fabric} (hfg : f.Idle g) (hgh : g.Idle h) : f.Idle h :=
  ⟨hgh.engines.trans hfg.engines, hgh.members.trans hfg.members, hgh.boards.trans hfg.boards⟩

theorem wakeFirst_nil {f : Fabric} : f.wakeFirst [] = f :=
  congrArg (fun ready => { f with ready := ready }) (List.filter_eq_self.2 fun _ _ => rfl)

theorem idle_wake {f : Fabric} (task : Task) : f.Idle (f.wake task) := by
  unfold wake
  split <;> exact ⟨rfl, rfl, rfl⟩

/-- A relation between a fabric and the joins for which threads wait that is kept by all that
schedules do, as long as commands have a property. -/
structure Lasting (R : Fabric → (ThreadId → Option Join) → Prop) (P : Command → Prop) : Prop where
  idle : ∀ {f g joins}, R f joins → f.Idle g → R g joins
  work : ∀ {f joins} (e : EngineId), R f joins → R (f.work e) joins
  tick : ∀ {f joins} (e : EngineId), R f joins → R (f.tick e) joins
  /-- A thread that waits for no join begins a command. -/
  start : ∀ {f joins t c}, R f joins → joins t = none → P c →
    R (f.start t c).1 (Function.update joins t (f.start t c).2.join?)
  /-- A thread looks whether it can go on with a join. -/
  resume : ∀ {f joins t j start deadline cutoff}, R f joins → joins t = some j →
    R (f.resume t (.join j start deadline cutoff)).1
      (Function.update joins t (f.resume t (.join j start deadline cutoff)).2.join?)

end Fabric

namespace Schedule

open Fabric Function

variable {R : Fabric → (ThreadId → Option Join) → Prop} {P : Command → Prop} {f g : Fabric}
  {s r : Schedule} {t u : ThreadId} {plans : List (Nat × Plan)} {w : Option Wait}
  {times : List Nat} {endings : List Ending} {joins : ThreadId → Option Join}

/-- A thread that nobody waits for has no plans left. -/
theorem finish_of_parent {y : Thread} (ht : s.threads[t]? = some y) (hparent : y.parent = none)
    (endings : List Ending) :
    s.finish t endings = { s with threads := s.threads.set t ⟨none, [], none, endings⟩ } := by
  have hthreads : s.threads.modify t (fun old =>
      { old with plans := [], wait := none, endings := endings }) =
      s.threads.set t ⟨none, [], none, endings⟩ := by
    rw [List.modify_eq_set_getElem?, ht]
    simp [hparent]
  have hlt : t < s.threads.length := (List.getElem?_eq_some_iff.1 ht).1
  simp only [finish, park, hthreads, List.foldl_nil]
  have hnobody : (Schedule.thread { s with threads := s.threads.set t ⟨none, [], none, endings⟩ }
      t).parent = none := by
    simp [thread, List.getD, hlt]
  rw [hnobody]
  exact congrArg (fun f => (⟨f, _⟩ : Schedule)) wakeFirst_nil

/-- A task has been run that was ready before the others that are left. -/
def turn (s : Schedule) (k : Task) (rest : List Task) : Schedule :=
  (s.withFabric { s.fabric with ready := rest }).run k

theorem settleWithin?_turn {k : Task} {rest : List Task} (hready : s.fabric.ready = k :: rest)
    (n : Nat) : settleWithin? (n + 1) s = settleWithin? n (s.turn k rest) := by
  simp only [settleWithin?, hready]
  rfl

/-- Tasks run until none is ready. -/
def Settles (s r : Schedule) : Prop :=
  ∃ n, settleWithin? n s = some r

namespace Settles

theorem refl (h : s.fabric.ready = []) : s.Settles s :=
  ⟨0, by simp [settleWithin?, h]⟩

theorem turn {k : Task} {rest : List Task} (hready : s.fabric.ready = k :: rest)
    (h : (s.turn k rest).Settles r) : s.Settles r := by
  obtain ⟨n, hn⟩ := h
  exact ⟨n + 1, (settleWithin?_turn hready n).trans hn⟩

/-- Tasks that run until none is ready have one result. -/
theorem unique {q : Schedule} (h : s.Settles r) (h' : s.Settles q) : q = r := by
  obtain ⟨n, hn⟩ := h
  obtain ⟨k, hk⟩ := h'
  have hboth := (settleWithin?_mono hn (Nat.le_max_left n k)).symm.trans
    (settleWithin?_mono hk (Nat.le_max_right n k))
  exact (Option.some.inj hboth).symm

end Settles

def join? (s : Schedule) (t : ThreadId) : Option Join :=
  Wait.join? (s.thread t).wait

/-- The relation holds of a schedule, and all plans to come have the property. -/
structure Keeps (R : Fabric → (ThreadId → Option Join) → Prop) (P : Command → Prop)
    (s : Schedule) : Prop where
  joins : R s.fabric s.join?
  plans : ∀ {t p}, p ∈ (s.thread t).plans → p.2.All P

theorem thread_of_length_le (ht : s.threads.length ≤ t) : s.thread t = default := by
  simp [thread, List.getD, List.getElem?_eq_none ht]

theorem thread_park : (s.park t plans w times endings).thread u =
    if u = t ∧ t < s.threads.length then
      { s.thread t with plans := plans, wait := w, endings := endings }
    else s.thread u := by
  simp only [park, thread, List.getD, List.getElem?_modify]
  by_cases hut : u = t
  · subst hut
    by_cases hlt : u < s.threads.length <;> simp [hlt]
  · simp [hut, Ne.symm hut]

theorem idle_park : s.fabric.Idle (s.park t plans w times endings).fabric := by
  have htimers : ∀ f : Fabric,
      f.Idle (times.foldl (fun f time => f.setTimer time (.thread t)) f) := by
    induction times with
    | nil => exact fun f => ⟨rfl, rfl, rfl⟩
    | cons time times ih =>
      exact fun f => .trans (g := f.setTimer time (.thread t)) ⟨rfl, rfl, rfl⟩ (ih _)
  exact htimers s.fabric

namespace Keeps

theorem withFabric (h : s.Keeps R P) (hg : R g s.join?) : (s.withFabric g).Keeps R P :=
  ⟨hg, h.plans⟩

/-- A thread has come so far. If there is no such thread, it waits for no join and has no plans. -/
theorem park (C : Lasting R P)
    (hjoins : R s.fabric (update s.join? t (Wait.join? w)))
    (hold : ∀ {u p}, p ∈ (s.thread u).plans → p.2.All P) (hplans : ∀ p ∈ plans, p.2.All P)
    (ht : t < s.threads.length ∨ Wait.join? w = none) :
    (s.park t plans w times endings).Keeps R P := by
  have hsame : (s.park t plans w times endings).join? = update s.join? t (Wait.join? w) := by
    funext u
    rw [join?, thread_park]
    by_cases hut : u = t
    · subst hut
      by_cases hlt : u < s.threads.length
      · simp [hlt]
      · rw [if_neg fun h => hlt h.2, thread_of_length_le (Nat.le_of_not_lt hlt), update_self,
          ht.resolve_left hlt]
        rfl
    · simp [hut, join?]
  refine ⟨hsame ▸ C.idle hjoins idle_park, fun {u p} hp => ?_⟩
  rw [thread_park] at hp
  split at hp
  · exact hplans p hp
  · exact hold hp

/-- Threads come that wait for nothing yet. -/
theorem spawn {threads : List Thread} (h : s.Keeps R P) (hwait : ∀ x ∈ threads, x.wait = none)
    (hplans : ∀ x ∈ threads, ∀ p ∈ x.plans, p.2.All P) :
    (⟨s.fabric, s.threads ++ threads⟩ : Schedule).Keeps R P := by
  -- A thread is an old one, or one of the new ones, or there is none.
  have hthread : ∀ u, (⟨s.fabric, s.threads ++ threads⟩ : Schedule).thread u = s.thread u ∨
      s.thread u = default ∧ (⟨s.fabric, s.threads ++ threads⟩ : Schedule).thread u ∈ threads := by
    intro u
    by_cases hlt : u < s.threads.length
    · exact .inl (by simp [thread, List.getD, List.getElem?_append_left hlt])
    · have hle := Nat.le_of_not_lt hlt
      by_cases hnew : u - s.threads.length < threads.length
      · refine .inr ⟨thread_of_length_le hle, ?_⟩
        simp [thread, List.getD, List.getElem?_append_right hle, hnew]
      · refine .inl ?_
        simp [thread, List.getD, List.getElem?_append_right hle, List.getElem?_eq_none hle, hnew]
  have hsame : (⟨s.fabric, s.threads ++ threads⟩ : Schedule).join? = s.join? := by
    funext u
    rcases hthread u with hu | ⟨hold, hnew⟩
    · rw [join?, hu, join?]
    · rw [join?, hwait _ hnew, join?, hold]
      rfl
  refine ⟨hsame ▸ h.joins, fun {u p} hp => ?_⟩
  rcases hthread u with hu | ⟨-, hnew⟩
  · exact h.plans (hu ▸ hp)
  · exact hplans _ hnew p hp

/-- A thread waits for new ones. -/
theorem branch (C : Lasting R P) {threads : List (List (Nat × Plan))}
    (hjoins : R s.fabric (update s.join? t none))
    (hold : ∀ {u p}, p ∈ (s.thread u).plans → p.2.All P) (hplans : ∀ p ∈ plans, p.2.All P)
    (ht : t < s.threads.length) (hthreads : ∀ plans ∈ threads, ∀ p ∈ plans, p.2.All P) :
    (s.branch t plans endings threads).Keeps R P := by
  have hpark : (s.park t plans
      (some (.threads ((List.range threads.length).map (s.threads.length + ·)))) []
      endings).Keeps R P :=
    park C hjoins hold hplans (.inl ht)
  have hwait : ∀ x ∈ threads.map (Thread.begin (some t) s.fabric.now), x.wait = none := by
    intro x hx
    obtain ⟨plans, -, rfl⟩ := List.mem_map.1 hx
    rfl
  have hspawn := spawn hpark hwait fun x hx p hp => by
    obtain ⟨plans, hplans, rfl⟩ := List.mem_map.1 hx
    obtain ⟨q, hq, rfl⟩ := List.mem_map.1 hp
    exact hthreads plans hplans q hq
  exact hspawn.withFabric (C.idle hspawn.joins ⟨rfl, rfl, rfl⟩)

/-- A thread that waits for no join goes on with its plans. -/
theorem proceed (C : Lasting R P) (hjoins : R s.fabric (update s.join? t none))
    (hold : ∀ {u p}, p ∈ (s.thread u).plans → p.2.All P) (hplans : ∀ p ∈ plans, p.2.All P)
    (ht : plans ≠ [] → t < s.threads.length) : (s.proceed t endings plans).Keeps R P := by
  induction plans generalizing s endings with
  | nil =>
    have hpark : (s.park t [] none [] endings).Keeps R P :=
      park C hjoins hold (fun p hp => absurd hp List.not_mem_nil) (.inr rfl)
    exact hpark.withFabric (C.idle hpark.joins ⟨rfl, rfl, rfl⟩)
  | cons p rest ih =>
    obtain ⟨time, plan⟩ := p
    have hlt := ht (List.cons_ne_nil _ _)
    have hrest : ∀ p ∈ rest, p.2.All P := fun p hp => hplans p (List.mem_cons_of_mem _ hp)
    unfold Schedule.proceed
    split
    · exact park C hjoins hold hplans (.inl hlt)
    · cases hplans _ List.mem_cons_self with
      | @one c hc =>
        have hstart := C.start hjoins (update_self t none s.join?) hc
        rw [update_idem] at hstart
        simp only
        split
        · next g outcome heq =>
          rw [heq] at hstart
          exact ih hstart hold hrest fun _ => hlt
        · next g pause heq =>
          rw [heq] at hstart
          exact park C hstart hold hrest (.inl hlt)
      | @together threads hthreads =>
        cases threads with
        | nil => exact ih hjoins hold hrest fun _ => hlt
        | cons thread threads => exact branch C hjoins hold hrest hlt hthreads

theorem advance (C : Lasting R P) (h : s.Keeps R P) : (s.advance t).Keeps R P := by
  have hclear : R (s.fabric.clearTimers (.thread t)) s.join? := C.idle h.joins ⟨rfl, rfl, rfl⟩
  have hlt : s.thread t ≠ default → t < s.threads.length := fun hne =>
    Nat.lt_of_not_le fun hle => hne (thread_of_length_le hle)
  have hplans : (s.thread t).plans ≠ [] → t < s.threads.length := fun hne =>
    hlt fun hdefault => hne (by rw [hdefault]; rfl)
  have hnone : Wait.join? (s.thread t).wait = none → update s.join? t none = s.join? := fun ht =>
    update_eq_self_iff.2 ht.symm
  unfold Schedule.advance
  simp only
  split
  · next hwait =>
    have hjoins := (hnone (by rw [hwait]; rfl)).symm ▸ hclear
    exact proceed C (s := s.withFabric _) hjoins h.plans (fun p => h.plans) hplans
  · next pause hwait =>
    have hresume : R ((s.fabric.clearTimers (.thread t)).resume t pause).1
        (update s.join? t ((s.fabric.clearTimers (.thread t)).resume t pause).2.join?) := by
      cases pause with
      | rest time =>
        have hrest := (hnone (by rw [hwait]; rfl)).symm ▸ hclear
        simp only [Fabric.resume]
        split <;> exact hrest
      | join j start deadline cutoff => exact C.resume hclear (by rw [join?, hwait]; rfl)
    split
    · next g outcome heq =>
      rw [heq] at hresume
      exact proceed C (s := s.withFabric _) hresume h.plans (fun p => h.plans) hplans
    · next g pause' heq =>
      rw [heq] at hresume
      refine park C (s := s.withFabric _) hresume h.plans (fun p => h.plans)
        (.inl (hlt fun hdefault => ?_))
      rw [hdefault] at hwait
      contradiction
  · next ids hwait =>
    split
    · have hjoins := (hnone (by rw [hwait]; rfl)).symm ▸ hclear
      exact proceed C (s := s.withFabric _) hjoins h.plans (fun p => h.plans) hplans
    · exact h

theorem run (C : Lasting R P) (h : s.Keeps R P) (task : Task) : (s.run task).Keeps R P := by
  cases task with
  | worker e => exact h.withFabric (C.work e h.joins)
  | liveness e => exact h.withFabric (C.tick e h.joins)
  | thread t => exact h.advance C

theorem settleWithin? (C : Lasting R P) {patience : Nat} (h : s.Keeps R P)
    (hr : Schedule.settleWithin? patience s = some r) : r.Keeps R P := by
  induction patience generalizing s with
  | zero =>
    have hsame : s.fabric.ready.isEmpty = true ∧ s = r := by
      simpa [Schedule.settleWithin?] using hr
    exact hsame.2 ▸ h
  | succ patience ih =>
    simp only [Schedule.settleWithin?] at hr
    split at hr
    · exact Option.some.inj hr ▸ h
    · next task rest _ =>
      have hready : (s.withFabric { s.fabric with ready := rest }).Keeps R P :=
        h.withFabric (C.idle h.joins ⟨rfl, rfl, rfl⟩)
      exact ih (hready.run C task) hr

theorem elapseTo (C : Lasting R P) (h : s.Keeps R P) (time : Nat) : (s.elapseTo time).Keeps R P := by
  have hwake : ∀ (due : List (Nat × Task)) (g : Fabric),
      g.Idle (due.foldl (fun g d => g.wake d.2) g) := by
    intro due
    induction due with
    | nil => exact fun g => ⟨rfl, rfl, rfl⟩
    | cons d due ih => exact fun g => (idle_wake d.2).trans (ih _)
  refine h.withFabric (C.idle h.joins (.trans (g := { s.fabric with
    now := max s.fabric.now time, timers := s.fabric.timers.filter (time < ·.1) })
    ⟨rfl, rfl, rfl⟩ (hwake _ _)))

theorem complete? (C : Lasting R P) {patience moments : Nat} (h : s.Keeps R P)
    (hr : Schedule.complete? patience moments s = some r) : r.Keeps R P ∧ r.isOver = true := by
  induction moments generalizing s with
  | zero => contradiction
  | succ moments ih =>
    simp only [Schedule.complete?, Option.bind_eq_bind] at hr
    obtain ⟨s', hsettle, hr⟩ := Option.bind_eq_some_iff.1 hr
    have hsettled := h.settleWithin? C hsettle
    split at hr
    · next hover =>
      obtain rfl := Option.some.inj hr
      exact ⟨hsettled, hover⟩
    · obtain ⟨time, -, hr⟩ := Option.bind_eq_some_iff.1 hr
      exact ih (hsettled.elapseTo C time) hr

end Keeps

/-- When all threads are over none waits for a join. -/
theorem join?_of_isOver (hover : s.isOver = true) : s.join? = fun _ => none := by
  funext t
  by_cases hlt : t < s.threads.length
  · have hthread : (s.thread t).isOver = true := by
      refine List.all_eq_true.1 hover _ ?_
      simp [thread, List.getD, hlt]
    have hwait : (s.thread t).wait = none := by
      simpa using (Bool.and_eq_true_iff.1 hthread).2
    rw [join?, hwait]
    rfl
  · rw [join?, thread_of_length_le (Nat.le_of_not_lt hlt)]
    rfl

end Schedule

/-- **What commands, tasks and time keep, holds when a plan has been played to its end.** -/
theorem Fabric.Lasting.play? {R : Fabric → (ThreadId → Option Join) → Prop} {P : Command → Prop}
    (C : Lasting R P) {f g : Fabric} {plan : Plan} {patience : Nat} {ending : Ending}
    (hf : R f fun _ => none) (hplan : plan.All P) (hplay : f.play? patience plan = some (g, ending)) :
    R g fun _ => none := by
  simp only [Fabric.play?, Option.bind_eq_bind] at hplay
  obtain ⟨s, hcomplete, hplay⟩ := Option.bind_eq_some_iff.1 hplay
  obtain ⟨ending', -, hplay⟩ := Option.bind_eq_some_iff.1 hplay
  obtain ⟨rfl, rfl⟩ := Prod.mk.inj (Option.some.inj hplay)
  have hbegin : Schedule.Keeps R P
      ⟨f.wakeFirst [.thread 0], [Thread.begin none f.now [(0, plan)]]⟩ := by
    have hnone : Schedule.join?
        ⟨f.wakeFirst [.thread 0], [Thread.begin none f.now [(0, plan)]]⟩ = fun _ => none := by
      funext t
      cases t <;> rfl
    refine ⟨hnone ▸ C.idle hf ⟨rfl, rfl, rfl⟩, fun {t p} hp => ?_⟩
    cases t with
    | zero => exact List.mem_singleton.1 hp ▸ hplan
    | succ t => exact absurd hp List.not_mem_nil
  obtain ⟨hend, hover⟩ := hbegin.complete? C hcomplete
  exact Schedule.join?_of_isOver hover ▸ hend.joins

end Overlay
