import Overlay.Fabric.Command

/-!
# Schedules

A schedule runs threads over a fabric. A thread carries out its plans one after the other, none
before a time of its own, and pauses where a command has to wait. A plan may also be to run more
threads together; the thread that does so goes on when all of them are over.

Tasks run one at a time, in the order in which they became ready, each until it has to wait. Threads
that run together begin at once, in the order in which they are listed, and so does the thread that
has waited for them as soon as the last one is over. Only when no task is ready time goes on, to the
next moment at which a timer fires. A schedule is over when all its threads are and no task is
ready.

How many tasks run before none is ready, and how many moments pass before all threads are over, no
one tells beforehand, so a schedule is run with patience: a number of tasks for each moment and a
number of moments. There is no result if that was not enough, and more patience does not change a
result.
-/

namespace Overlay

/-- What a thread is to do. -/
inductive Plan where
  | one (command : Command)
  /-- Threads that run together, their plans with times from the beginning on. -/
  | together (threads : List (List (Nat × Plan)))

/-- How a plan ended. -/
inductive Ending where
  | one (outcome : Outcome)
  /-- How the plans of each thread have ended. -/
  | together (endings : List (List Ending))

/-- What a thread waits for. -/
inductive Wait where
  | command (pause : Pause)
  /-- That other threads are over. -/
  | threads (threads : List ThreadId)

/-- A sequence of plans, and how far it has come. -/
structure Thread where
  /-- The thread that waits for this one. -/
  parent : Option ThreadId
  /-- The plans to come, each with the time before which it does not begin. -/
  plans : List (Nat × Plan)
  /-- What the thread waits for. -/
  wait : Option Wait
  /-- How its plans ended, the latest first. -/
  endings : List Ending

namespace Thread

instance : Inhabited Thread := ⟨⟨none, [], none, []⟩⟩

/-- A thread that begins at a time, with plans whose times count from then on. -/
def begin (parent : Option ThreadId) (now : Nat) (plans : List (Nat × Plan)) : Thread :=
  ⟨parent, plans.map fun p => (now + p.1, p.2), none, []⟩

def isOver (t : Thread) : Bool :=
  t.plans.isEmpty && t.wait.isNone

end Thread

/-- Threads at work on a fabric. -/
structure Schedule where
  fabric : Fabric
  threads : List Thread

namespace Schedule

def thread (s : Schedule) (t : ThreadId) : Thread :=
  s.threads.getD t default

def withFabric (s : Schedule) (f : Fabric) : Schedule :=
  { s with fabric := f }

/-- The times at which a thread that waits has to look again. -/
def alarms : Pause → List Nat
  | .rest time => [time]
  | .join _ _ deadline cutoff => deadline :: cutoff.toList

/-- A thread has come so far, and will look again at the given times. -/
def park (s : Schedule) (t : ThreadId) (plans : List (Nat × Plan)) (wait : Option Wait)
    (times : List Nat) (endings : List Ending) : Schedule :=
  { fabric := times.foldl (fun f time => f.setTimer time (.thread t)) s.fabric
    threads := s.threads.modify t fun old =>
      { old with plans := plans, wait := wait, endings := endings } }

/-- A thread waits for what a command waits for. -/
def pauseAt (s : Schedule) (t : ThreadId) (plans : List (Nat × Plan)) (pause : Pause)
    (endings : List Ending) : Schedule :=
  s.park t plans (some (.command pause)) (alarms pause) endings

/-- Whether a thread waits for others and all of them are over. -/
def isReleased (s : Schedule) (t : ThreadId) : Bool :=
  match (s.thread t).wait with
  | some (.threads ids) => ids.all fun i => (s.thread i).isOver
  | _ => false

/-- A thread has no plans left. If it is the last one that another one waits for, that one goes on.
-/
def finish (s : Schedule) (t : ThreadId) (endings : List Ending) : Schedule :=
  let s := s.park t [] none [] endings
  s.withFabric (s.fabric.wakeFirst (((s.thread t).parent.toList.filter s.isReleased).map .thread))

/-- A thread waits for new ones, which begin at once. -/
def branch (s : Schedule) (t : ThreadId) (plans : List (Nat × Plan)) (endings : List Ending)
    (threads : List (List (Nat × Plan))) : Schedule :=
  let ids := (List.range threads.length).map (s.threads.length + ·)
  let s := s.park t plans (some (.threads ids)) [] endings
  { fabric := s.fabric.wakeFirst (ids.map .thread)
    threads := s.threads ++ threads.map (Thread.begin (some t) s.fabric.now) }

/-- A thread goes on with its plans until it has to wait or has none left. -/
def proceed (s : Schedule) (t : ThreadId) (endings : List Ending) :
    List (Nat × Plan) → Schedule
  | [] => s.finish t endings
  | (time, plan) :: rest =>
    if s.fabric.now < time then s.park t ((time, plan) :: rest) none [time] endings
    else
      match plan with
      | .one c =>
        match s.fabric.start t c with
        | (f, .over outcome) => (s.withFabric f).proceed t (.one outcome :: endings) rest
        | (f, .paused pause) => (s.withFabric f).pauseAt t rest pause endings
      | .together [] => s.proceed t (.together [] :: endings) rest
      | .together threads => s.branch t rest endings threads

/-- A thread that has become ready looks whether it can go on. -/
def advance (s : Schedule) (t : ThreadId) : Schedule :=
  let thread := s.thread t
  let f := s.fabric.clearTimers (.thread t)
  match thread.wait with
  | none => (s.withFabric f).proceed t thread.endings thread.plans
  | some (.command pause) =>
    match f.resume t pause with
    | (f, .over outcome) =>
      (s.withFabric f).proceed t (.one outcome :: thread.endings) thread.plans
    | (f, .paused pause) => (s.withFabric f).pauseAt t thread.plans pause thread.endings
  | some (.threads ids) =>
    if s.isReleased t then
      let ending := .together (ids.map fun i => (s.thread i).endings.reverse)
      (s.withFabric f).proceed t (ending :: thread.endings) thread.plans
    else s

def run (s : Schedule) : Task → Schedule
  | .worker e => s.withFabric (s.fabric.work e)
  | .liveness e => s.withFabric (s.fabric.tick e)
  | .thread t => s.advance t

/-- Runs the tasks that are ready, and those that become ready by that. -/
def settleWithin? : Nat → Schedule → Option Schedule
  | 0, s => if s.fabric.ready.isEmpty then some s else none
  | patience + 1, s =>
    match s.fabric.ready with
    | [] => some s
    | t :: rest =>
      settleWithin? patience ({ s with fabric := { s.fabric with ready := rest } }.run t)

theorem settleWithin?_mono {n m : Nat} {s r : Schedule} (h : settleWithin? n s = some r)
    (hnm : n ≤ m) : settleWithin? m s = some r := by
  induction n generalizing m s with
  | zero =>
    have he : s.fabric.ready.isEmpty = true ∧ s = r := by simpa [settleWithin?] using h
    cases m with
    | zero => exact h
    | succ m => rw [settleWithin?, List.isEmpty_iff.1 he.1, he.2]
  | succ n ih =>
    obtain ⟨m, rfl⟩ : ∃ k, m = k + 1 := ⟨m - 1, by omega⟩
    simp only [settleWithin?] at h ⊢
    split at h
    · exact h
    · exact ih h (by omega)

/-- Nothing is ready any more in a result. -/
theorem ready_of_settleWithin? {n : Nat} {s r : Schedule} (h : settleWithin? n s = some r) :
    r.fabric.ready = [] := by
  induction n generalizing s with
  | zero =>
    have he : s.fabric.ready.isEmpty = true ∧ s = r := by simpa [settleWithin?] using h
    exact he.2 ▸ List.isEmpty_iff.1 he.1
  | succ n ih =>
    simp only [settleWithin?] at h
    split at h
    next hr => exact Option.some.inj h ▸ hr
    next => exact ih h

/-- The next moment at which a timer fires. -/
def nextTime? (s : Schedule) : Option Nat :=
  (s.fabric.timers.map Prod.fst).min?

/-- Time goes on to a moment, and the tasks whose timers fire become ready. -/
def elapseTo (s : Schedule) (time : Nat) : Schedule :=
  let due := s.fabric.timers.filter (·.1 ≤ time)
  let later := s.fabric.timers.filter (time < ·.1)
  let f := { s.fabric with now := max s.fabric.now time, timers := later }
  { s with fabric := due.foldl (fun f d => f.wake d.2) f }

def isOver (s : Schedule) : Bool :=
  s.threads.all Thread.isOver

/-- Runs the threads to their ends, with patience for the tasks of one moment and for the moments. A
thread that waits for nothing that will come has none. -/
def complete? (patience : Nat) : Nat → Schedule → Option Schedule
  | 0, _ => none
  | moments + 1, s => do
    let s ← settleWithin? patience s
    if s.isOver then return s
    let time ← s.nextTime?
    complete? patience moments (s.elapseTo time)

theorem complete?_mono {p q n m : Nat} {s r : Schedule} (h : complete? p n s = some r)
    (hpq : p ≤ q) (hnm : n ≤ m) : complete? q m s = some r := by
  induction n generalizing m s with
  | zero => simp [complete?] at h
  | succ n ih =>
    obtain ⟨m, rfl⟩ : ∃ k, m = k + 1 := ⟨m - 1, by omega⟩
    simp only [complete?] at h ⊢
    cases hs : settleWithin? p s with
    | none => simp [hs] at h
    | some t =>
      simp only [hs, settleWithin?_mono hs hpq, Option.bind_eq_bind, Option.bind_some] at h ⊢
      by_cases hover : t.isOver = true
      · rw [if_pos hover] at h ⊢
        exact h
      · rw [if_neg hover] at h ⊢
        cases ht : t.nextTime? with
        | none => simp [ht] at h
        | some time =>
          rw [ht, Option.bind_some] at h
          rw [Option.bind_some]
          exact ih h (by omega)

end Schedule

namespace Fabric

/-- Carries out a plan to its end, and tells how it has ended. -/
def play? (f : Fabric) (patience : Nat) (plan : Plan) : Option (Fabric × Ending) := do
  let thread := Thread.begin none f.now [(0, plan)]
  let s ← Schedule.complete? patience patience ⟨f.wakeFirst [.thread 0], [thread]⟩
  let ending ← (s.thread 0).endings.head?
  return (s.fabric, ending)

end Fabric

end Overlay
