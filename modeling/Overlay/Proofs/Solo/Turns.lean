import Mathlib.Data.List.Perm.Basic
import Overlay.Fabric.Lifecycle
import Overlay.Proofs.Solo.Abreast

/-!
# Turns of a lone engine

What is done to two lone engines of which one delivers at once and the other one has a worker: agents
join and leave, messages come in from outside, the clock is set, a pass is made, time goes on. After
every turn tasks run until none is ready. A join that has to wait waits on then, and the next turns
fall into its wait.

Each turn leaves both sides abreast, or the one with a worker with something to deliver, and so they
come to rest abreast (`Abreast.takeTurn`). Only an agent must not be unheard: whose wait is ended by a
message must have no answer to what is queued for the listeners (`Schedule.Unheard`).
-/

namespace Overlay

/-- What is done to a lone engine, and by its agents. -/
inductive Solo.Turn where
  | join (agent : AgentId)
  | leave (agent : AgentId)
  | inject (message : Message)
  | setClock (now : Nat)
  /-- A liveness pass that looks at the contacts in an order. -/
  | pass (order : List (Identity × Slot))
  /-- Time goes on to a moment, or to an earlier one at which a timer fires. -/
  | elapse (time : Nat)

/-! ## On the state -/

namespace Solo

def setClock (v : Solo) (now : Nat) : Solo :=
  { v with engine := { v.engine with clock := now } }

def elapseTo (v : Solo) (time : Nat) : Solo :=
  { v with lobby := v.lobby.elapseTo time }

variable {v w : Solo} {first : Nat} {ds : Draws} {m n : Message} {ts : List Thread}

theorem Like.setClock (h : Like first ds v w) (now : Nat) :
    Like first ds (v.setClock now) (w.setClock now) := by
  unfold Solo.setClock
  rw [h.engine]
  exact h.setEngine _

theorem Like.elapseTo (h : Like first ds v w) (time : Nat) :
    Like first ds (v.elapseTo time) (w.elapseTo time) :=
  { h with
    blind := h.blind
    lobby := h.lobby.elapseTo time }

/-- A message leaves one for the listeners at most. -/
theorem take_eq_nil_or_singleton : (v.take m).2 = [] ∨ ∃ n, (v.take m).2 = [n] := by
  unfold take process
  split
  · split
    · exact .inl rfl
    · exact .inl rfl
    · dsimp only
      split
      · exact .inr ⟨_, rfl⟩
      · exact .inl rfl
    · exact .inr ⟨_, rfl⟩
  · exact .inl rfl

end Solo

/-! ## On a schedule -/

namespace Schedule

open Fabric

/-- A thread of its own begins a command. -/
def issue (s : Schedule) (c : Command) : Schedule where
  fabric := s.fabric.wake (.thread s.threads.length)
  threads := s.threads ++ [.begin none s.fabric.now [(0, .one c)]]

/-- A turn is taken. Who joins is an agent that there is, and has a thread for that. A pass looks at
all contacts, each once; nothing else is one. -/
def takeTurn (b : BusId) (s : Schedule) : Solo.Turn → Schedule
  | .join a => if a < s.fabric.members.length then s.issue (.join a 0 none) else s
  | .leave a => s.withFabric (s.fabric.carryOut (.leave a)).1
  | .inject m => s.withFabric (s.fabric.carryOut (.inject b m)).1
  | .setClock now => s.withFabric (s.fabric.carryOut (.setClock 0 now)).1
  | .pass order =>
    if order.Perm (s.fabric.engine 0).directory.remotes.toList then
      s.withFabric (s.fabric.pass 0 order)
    else s
  | .elapse time => s.elapseTo (s.nextTime?.elim time (min time))

/-- Turns are taken one after the other, and after each of them tasks run until none is ready. -/
inductive Takes (b : BusId) : Schedule → List Solo.Turn → Schedule → Prop where
  | nil {s} : Takes b s [] s
  | cons {s r q t turns} (hturn : (s.takeTurn b t).Settles r) (hrest : Takes b r turns q) :
      Takes b s (t :: turns) q

variable {s r q : Schedule} {f : Fabric} {v w : Solo} {x : GatewayId} {b : BusId} {p : SocketId}
  {mode : Dispatch} {awake : Bool} {waiting : List Message} {turn : Solo.Turn}
  {turns : List Solo.Turn} {first : Nat} {m : Message} {a : AgentId} {c : Command} {j : Join}
  {start d : Nat} {outcome : Outcome}

/-- Turns have one result. -/
theorem Takes.unique (hr : Takes b s turns r) (hq : Takes b s turns q) : q = r := by
  induction hr with
  | nil => cases hq; rfl
  | cons hturn hrest ih =>
    cases hq with
    | cons hturn' hrest' =>
      obtain rfl := hturn.unique hturn'
      exact ih hrest'

/-! ## Joins -/

/-- The thread that has been made for a command begins it. -/
theorem turn_issue (hready : s.fabric.ready = [])
    (htimers : s.fabric.clearTimers (.thread s.threads.length) = s.fabric) :
    (s.issue c).fabric.ready = [.thread s.threads.length] ∧
      (s.issue c).turn (.thread s.threads.length) [] =
        Schedule.proceed ⟨s.fabric, (s.issue c).threads⟩ s.threads.length []
          [(s.fabric.now + 0, .one c)] := by
  have hwoken : (s.issue c).fabric = { s.fabric with ready := [.thread s.threads.length] } := by
    simp [issue, wake, hready]
  have hidle : { (s.issue c).fabric with ready := [] } = s.fabric := by
    rw [hwoken, ← hready]
  have hthread : (s.issue c).thread s.threads.length = .begin none s.fabric.now [(0, .one c)] := by
    simp [issue, thread, List.getD]
  refine ⟨by rw [hwoken], ?_⟩
  simp only [turn, run, hidle]
  have hsame : ((s.issue c).withFabric s.fabric).thread s.threads.length =
      .begin none s.fabric.now [(0, .one c)] := hthread
  have hcleared : ((s.issue c).withFabric s.fabric).fabric.clearTimers (.thread s.threads.length) =
      s.fabric := htimers
  simp only [advance, hsame, hcleared, Thread.begin]
  rfl

theorem getElem?_issue : (s.issue c).threads[s.threads.length]? =
    some (.begin none s.fabric.now [(0, .one c)]) := by
  simp [issue]

/-- A command that is over at once leaves a thread behind that is over. -/
theorem issue_of_over (hready : s.fabric.ready = [])
    (htimers : s.fabric.clearTimers (.thread s.threads.length) = s.fabric)
    (hstart : s.fabric.start s.threads.length c = (f, .over outcome)) :
    (s.issue c).turn (.thread s.threads.length) [] = ⟨f, s.threads ++ [.ended outcome]⟩ := by
  have hproceed : Schedule.proceed ⟨s.fabric, (s.issue c).threads⟩ s.threads.length []
      [(s.fabric.now + 0, .one c)] =
      Schedule.finish ⟨f, (s.issue c).threads⟩ s.threads.length [.one outcome] := by
    simp [proceed, hstart, withFabric]
  have hset : (s.issue c).threads.set s.threads.length (.ended outcome) =
      s.threads ++ [.ended outcome] := by
    simp [issue]
  have hfinish := finish_of_parent (s := ⟨f, (s.issue c).threads⟩) getElem?_issue rfl [.one outcome]
  rw [(turn_issue hready htimers).2, hproceed, hfinish, ← hset]
  rfl

/-- A join that has to wait leaves a thread behind that waits. -/
theorem issue_of_paused (hready : s.fabric.ready = [])
    (htimers : s.fabric.clearTimers (.thread s.threads.length) = s.fabric)
    (hstart : s.fabric.start s.threads.length c = (f, .paused (.join j start d none))) :
    (s.issue c).turn (.thread s.threads.length) [] =
      ⟨f.setTimer d (.thread s.threads.length), s.threads ++ [.waiting j start d]⟩ := by
  have hproceed : Schedule.proceed ⟨s.fabric, (s.issue c).threads⟩ s.threads.length []
      [(s.fabric.now + 0, .one c)] = Schedule.pauseAt ⟨f, (s.issue c).threads⟩ s.threads.length []
        (.join j start d none) [] := by
    simp [proceed, hstart, withFabric]
  rw [(turn_issue hready htimers).2, hproceed]
  simp [pauseAt, park, alarms, issue, Thread.begin, Thread.waiting, List.modify_eq_set_getElem?]

/-! ## Time -/

theorem shows_elapseTo (h : Shows x b p mode awake s.fabric v waiting) (time : Nat)
    (htimers : ∀ k ∈ v.lobby.timers, k.2 ≠ .worker 0) :
    Shows x b p mode awake (s.elapseTo time).fabric (v.elapseTo time) waiting := by
  have htimers' : s.fabric.timers = v.lobby.timers := congrArg Lobby.timers h.lobby
  have hnot : Task.worker 0 ∉ (s.fabric.timers.filter (·.1 ≤ time)).map Prod.snd := by
    intro hmem
    obtain ⟨k, hk, hworker⟩ := List.mem_map.1 hmem
    exact htimers k (htimers' ▸ List.mem_of_mem_filter hk) hworker
  simp only [elapseTo, foldl_wake]
  exact { h with
    lobby := by
      rw [Solo.elapseTo, ← h.lobby]
      simp only [lobbyAt, Lobby.elapseTo, filter_enqueued hnot]
      rfl
    nodup := nodup_enqueued h.nodup
    worker := by
      rw [mem_enqueued, ← h.worker]
      exact ⟨fun hw => hw.resolve_right hnot, .inl⟩ }

end Schedule

namespace Fabric

variable {f : Fabric} {v : Solo} {x : GatewayId} {b : BusId} {p : SocketId} {mode : Dispatch}
  {awake : Bool} {waiting : List Message} {m : Message}

namespace Shows

theorem setClock (h : Shows x b p mode awake f v waiting) (now : Nat) :
    Shows x b p mode awake (f.carryOut (.setClock 0 now)).1 (v.setClock now) waiting := by
  have hset := h.setEngine { v.engine with clock := now } waiting rfl rfl rfl rfl
  simp only [carryOut, Fabric.setClock, h.engine]
  exact hset

/-- What is said on the bus gets to the engine as it is read there, or not at all. -/
theorem carryOut_inject (h : Shows x b p mode awake f v waiting) :
    (f.carryOut (.inject b m)).1 = match Bus.carried m with
      | .ok n => receive f 0 n
      | .error _ => f := by
  simp only [carryOut, Fabric.inject, Bus.inject, Bus.carry, h.audience]
  cases Bus.carried m <;> rfl

end Shows

end Fabric

namespace Schedule

open Fabric

variable {s : Schedule} {w : Solo} {x : GatewayId} {b : BusId} {p : SocketId} {awake : Bool}
  {waiting : List Message} {m : Message} {j : Join} {d : Nat}

/-! ## Answers to what is queued -/

/-- The agent for which a thread waits to join. -/
def joining? (s : Schedule) (t : ThreadId) : Option AgentId :=
  (s.join? t).map Join.agent

/-- No agent whose wait has just been ended would answer what is queued for the listeners. -/
def Unheard (s : Schedule) : Prop :=
  ∀ t ∈ s.fabric.confirmed, ∀ a ∈ s.joining? t, ∀ m ∈ (s.fabric.engine 0).fanout.queue,
    (s.fabric.member a).agent.reply? (s.fabric.engine 0).identity s.fabric.fresh.1 m = none

/-- An agent that has no answer has none whatever identifier would be drawn for it. -/
theorem Unheard.mute (h : s.Unheard) (hshows : Shows x b p .worker awake s.fabric w waiting)
    {t : ThreadId} (ht : t ∈ w.lobby.confirmed) (hj : Joins s.threads t j d) (hm : m ∈ waiting) :
    w.Mute j.agent m := by
  intro uuid
  obtain ⟨start, hthread⟩ := hj
  have hjoining : j.agent ∈ s.joining? t := by
    simp [joining?, join?, thread, List.getD, hthread, Thread.waiting, Wait.join?, Progress.join?]
  have hlobby : s.fabric.confirmed = w.lobby.confirmed := congrArg Lobby.confirmed hshows.lobby
  have hqueue : (s.fabric.engine 0).fanout.queue = waiting := by
    rw [hshows.engine]
    rfl
  have hidentity : (s.fabric.engine 0).identity = w.engine.identity := by
    rw [hshows.engine]
    rfl
  have hnone := h t (hlobby ▸ ht) j.agent hjoining m (hqueue ▸ hm)
  rw [hshows.member, hidentity] at hnone
  have hsame : (w.member j.agent).agent.reply? w.engine.identity uuid (m.withUuid m.uuid) =
      ((w.member j.agent).agent.reply? w.engine.identity s.fabric.fresh.1 m).map
        (·.withUuid uuid) := Agent.reply?_withUuid
  rw [hnone] at hsame
  exact hsame

end Schedule

namespace Abreast

open Fabric Schedule

variable {x : GatewayId} {b : BusId} {p : SocketId} {first : Nat} {r s : Schedule} {v w : Solo}
  {waiting : List Message} {es : Draws} {a : AgentId} {t : Solo.Turn} {m : Message} {f : Fabric}

/-- What two sides are when nothing is ready. -/
theorem like (h : Abreast x b p first r s v w []) : ∃ es, Solo.Like first es v w := by
  obtain ⟨es, -, hlike⟩ := h.alike
  exact ⟨es, hlike⟩

theorem of_like (hinline : Shows x b p .inline false r.fabric v [])
    (hworker : Shows x b p .worker false s.fabric w []) (hthreads : s.threads = r.threads)
    (horderly : w.Orderly r.threads) (hlike : Solo.Alike first es v w) :
    Abreast x b p first r s v w [] where
  inline := hinline
  worker := hworker
  threads := hthreads
  orderly := horderly
  harmless := ⟨fun _ => rfl, .inl fun m hm => absurd hm List.not_mem_nil⟩
  alike := by
    obtain ⟨fs, -, hfs⟩ := hlike
    exact ⟨fs, List.nil_subset fs, hfs⟩

/-- What is left to do on both sides when the one with a worker has nothing left. -/
theorem ready_eq_nil (h : Abreast x b p first r s v w []) (hready : w.lobby.ready = []) :
    r.fabric.ready = [] ∧ s.fabric.ready = [] := by
  obtain ⟨es, hlike⟩ := h.like
  obtain ⟨board, -, hlobby⟩ := hlike.lobby
  have hv : v.lobby.ready = w.lobby.ready := (congrArg Lobby.ready hlobby).symm
  exact ⟨h.inline.ready_of_asleep.trans (hv.trans hready), h.worker.ready_of_asleep.trans hready⟩

theorem timers_eq (h : Abreast x b p first r s v w []) :
    r.fabric.timers = w.lobby.timers ∧ s.fabric.timers = w.lobby.timers := by
  obtain ⟨es, hlike⟩ := h.like
  obtain ⟨board, -, hlobby⟩ := hlike.lobby
  have hv : v.lobby.timers = w.lobby.timers := (congrArg Lobby.timers hlobby).symm
  exact ⟨(congrArg Lobby.timers h.inline.lobby).trans hv, congrArg Lobby.timers h.worker.lobby⟩

/-- A thread that is new has no timer. -/
theorem clearTimers_new (h : w.Orderly r.threads) (htimers : f.timers = w.lobby.timers) :
    f.clearTimers (.thread r.threads.length) = f := by
  have hkept : f.timers.filter (·.2 ≠ .thread r.threads.length) = f.timers := by
    refine List.filter_eq_self.2 fun k hk => decide_eq_true fun hnew => ?_
    rcases h.lobby.timers (htimers ▸ hk) with hk | ⟨t, s', d, hk, ⟨j, hj, -⟩, -⟩
    · rw [hk] at hnew
      cases hnew
    · rw [hk] at hnew
      obtain rfl := Task.thread.inj hnew
      exact Solo.not_joins_length hj
  exact congrArg (fun timers => { f with timers := timers }) hkept

/-- A join begins on both sides, and is over on both or has to wait on both. -/
theorem join (h : Abreast x b p first r s v w []) (hready : w.lobby.ready = [])
    (ha : a < w.members.length) :
    Rest x b p first (r.issue (.join a 0 none)) (s.issue (.join a 0 none)) := by
  obtain ⟨es, hlike⟩ := h.like
  obtain ⟨hr, hs⟩ := h.ready_eq_nil hready
  have hlength : s.threads.length = r.threads.length := by rw [h.threads]
  have hnewr := clearTimers_new h.orderly h.timers_eq.1
  have hnews := clearTimers_new h.orderly h.timers_eq.2
  rw [← hlength] at hnews
  obtain ⟨hprogress, halike⟩ := hlike.startJoin r.threads.length a
  obtain ⟨hleft, hinline⟩ := h.inline.startJoin r.threads.length a
  obtain ⟨hright, hworker⟩ := h.worker.startJoin r.threads.length a
  rw [← hprogress] at hleft
  have hbegun : ∀ {q : Schedule} {c : Progress}, (q.fabric.start r.threads.length
      (.join a 0 none)).2 = (w.startJoin r.threads.length a).2 →
      (w.startJoin r.threads.length a).2 = c → q.fabric.start r.threads.length (.join a 0 none) =
        ((q.fabric.start r.threads.length (.join a 0 none)).1, c) :=
    fun hq hc => Prod.ext rfl (hq.trans hc)
  -- The join comes as far on both sides, and what is left of the thread is the same.
  obtain ⟨v', w', hturned⟩ : ∃ v' w', Abreast x b p first
      ((r.issue (.join a 0 none)).turn (.thread r.threads.length) [])
      ((s.issue (.join a 0 none)).turn (.thread s.threads.length) []) v' w' [] := by
    rcases h.orderly.startJoin ha with ⟨outcome, hover, horderly⟩ | ⟨j, start, d, hpaused, horderly⟩
    case inl =>
      rw [issue_of_over hr hnewr (hbegun hleft hover),
        issue_of_over hs hnews (hlength.symm ▸ hbegun hright hover)]
      refine ⟨_, _, of_like hinline ?_ (by rw [h.threads]) horderly halike⟩
      exact hlength.symm ▸ hworker
    case inr =>
      rw [issue_of_paused hr hnewr (hbegun hleft hpaused),
        issue_of_paused hs hnews (hlength.symm ▸ hbegun hright hpaused), hlength]
      exact ⟨_, _, of_like (hinline.setTimer _ _) (hworker.setTimer _ _) (by rw [h.threads]) horderly
        (halike.bind fun _ _ hbegun => (hbegun.setTimer _ _).alike)⟩
  exact Rest.turn (hturned.comeToRest rfl) (turn_issue hr hnewr).1 (turn_issue hs hnews).1

/-! ## Other turns -/

theorem leave (h : Abreast x b p first r s v w []) (a : AgentId) :
    Rest x b p first (r.withFabric (r.fabric.carryOut (.leave a)).1)
      (s.withFabric (s.fabric.carryOut (.leave a)).1) := by
  obtain ⟨es, hlike⟩ := h.like
  have hleft : Abreast x b p first (r.withFabric (r.fabric.carryOut (.leave a)).1)
      (s.withFabric (s.fabric.carryOut (.leave a)).1) (v.leave a) (w.leave a) [] :=
    of_like (h.inline.leave h.registered a) (h.worker.leave h.orderly.registered a) h.threads
      (h.orderly.leave a) (hlike.leave a)
  exact hleft.comeToRest rfl

theorem setClock (h : Abreast x b p first r s v w []) (now : Nat) :
    Rest x b p first (r.withFabric (r.fabric.carryOut (.setClock 0 now)).1)
      (s.withFabric (s.fabric.carryOut (.setClock 0 now)).1) := by
  obtain ⟨es, hlike⟩ := h.like
  have hset : Abreast x b p first (r.withFabric (r.fabric.carryOut (.setClock 0 now)).1)
      (s.withFabric (s.fabric.carryOut (.setClock 0 now)).1) (v.setClock now) (w.setClock now) [] :=
    of_like (h.inline.setClock now) (h.worker.setClock now) h.threads { h.orderly with }
      (hlike.setClock now).alike
  exact hset.comeToRest rfl

theorem elapse (h : Abreast x b p first r s v w []) (time : Nat) :
    Rest x b p first (r.elapseTo (r.nextTime?.elim time (min time)))
      (s.elapseTo (s.nextTime?.elim time (min time))) := by
  obtain ⟨es, hlike⟩ := h.like
  have hnext : s.nextTime? = r.nextTime? := by
    rw [nextTime?, nextTime?, h.timers_eq.1, h.timers_eq.2]
  have htimers : ∀ k ∈ w.lobby.timers, k.2 ≠ .worker 0 := by
    intro k hk hworker
    rcases h.orderly.lobby.timers hk with hlive | ⟨t, _, _, hthread, -⟩
    · rw [hlive] at hworker
      cases hworker
    · rw [hthread] at hworker
      cases hworker
  have hsame : v.lobby.timers = w.lobby.timers :=
    (congrArg Lobby.timers h.inline.lobby).symm.trans h.timers_eq.1
  rw [hnext]
  generalize r.nextTime?.elim time (min time) = moment
  have hpassed : Abreast x b p first (r.elapseTo moment) (s.elapseTo moment) (v.elapseTo moment)
      (w.elapseTo moment) [] :=
    of_like (shows_elapseTo h.inline moment (hsame ▸ htimers))
      (shows_elapseTo h.worker moment htimers) h.threads
      { h.orderly with lobby := h.orderly.lobby.elapseTo moment } (hlike.elapseTo moment).alike
  exact hpassed.comeToRest rfl

/-- A message comes in. What it leaves for the listeners waits for the worker on the other side. -/
theorem take (h : Abreast x b p first r s v w []) (hready : w.lobby.ready = [])
    (hunheard : Unheard (s.withFabric (receive s.fabric 0 m))) :
    Rest x b p first (r.withFabric (receive r.fabric 0 m)) (s.withFabric (receive s.fabric 0 m)) := by
  obtain ⟨es, hlike⟩ := h.like
  obtain ⟨fs, -, htaken⟩ := hlike.take m
  have hinline : Rests x b p r.fabric v [] .inline := ⟨h.inline, fun _ => rfl⟩
  have hworker : Rests x b p s.fabric w [] .worker := ⟨h.worker, nofun⟩
  have hqueued : Shows x b p .worker (!(w.take m).2.isEmpty) (receive s.fabric 0 m) (w.take m).1
      (w.take m).2 := hworker.take h.orderly.registered m
  have hlands : Abreast x b p first (r.withFabric (receive r.fabric 0 m))
      (s.withFabric (receive s.fabric 0 m)) ((v.take m).1.settle (v.take m).2) (w.take m).1
      (w.take m).2 := by
    constructor
    case inline => exact hinline.take h.registered m
    case worker => exact hqueued
    case threads => exact h.threads
    case orderly => exact h.orderly.stays Solo.stays_take
    case harmless =>
      obtain ⟨ms, hms⟩ := (Solo.stays_take (v := w) (m := m)).lobby
      refine ⟨fun hlive => ?_, ?_⟩
      case refine_1 =>
        rw [hms] at hlive
        exact absurd (hready ▸ Lobby.liveness_of_foldl_inspect hlive) List.not_mem_nil
      case refine_2 =>
        rcases Solo.take_eq_nil_or_singleton (v := w) (m := m) with hnone | ⟨n, hone⟩
        · exact .inl fun n hn => absurd (hnone ▸ hn) List.not_mem_nil
        · refine .inr ⟨n, hone, fun {t} ht => ?_⟩
          -- Nobody was ready before, so whoever is ready now has been confirmed by the message.
          have hconfirmed : t ∈ (w.take m).1.lobby.confirmed := by
            rw [hms] at ht ⊢
            exact (Lobby.thread_of_foldl_inspect ht).resolve_left (hready ▸ List.not_mem_nil)
          exact ⟨hconfirmed, fun hj =>
            hunheard.mute hqueued hconfirmed (h.threads ▸ hj) (hone ▸ List.mem_singleton_self n)⟩
    case alike => exact ⟨fs, List.nil_subset fs, htaken⟩
  exact hlands.comeToRest rfl

theorem pass (h : Abreast x b p first r s v w []) (hready : w.lobby.ready = [])
    {order : List (Identity × Slot)} (horder : order.Perm w.engine.directory.remotes.toList) :
    Rest x b p first (r.withFabric (r.fabric.pass 0 order))
      (s.withFabric (s.fabric.pass 0 order)) := by
  obtain ⟨es, hlike⟩ := h.like
  obtain ⟨fs, -, hpassed⟩ := hlike.pass order
  have hsame : order.Perm v.engine.directory.remotes.toList := hlike.engine ▸ horder
  have hmade : Abreast x b p first (r.withFabric (r.fabric.pass 0 order))
      (s.withFabric (s.fabric.pass 0 order)) (v.passAtOnce order) (w.pass [] order).1
      (w.pass [] order).2 := by
    constructor
    case inline => exact h.inline.pass_inline h.registered (ordered_of_perm hsame)
    case worker => exact Shows.pass_worker h.worker h.orderly.registered (ordered_of_perm horder)
    case threads => exact h.threads
    case orderly => exact h.orderly.stays Solo.stays_pass
    case harmless =>
      refine ⟨fun hlive => ?_, .inl fun m hm =>
        Solo.fault_of_mem_pass (fun n hn => absurd hn List.not_mem_nil) hm⟩
      have hstays : w.Stays (w.pass [] order).1 := Solo.stays_pass
      obtain ⟨ms, hms⟩ := hstays.lobby
      rw [hms] at hlive
      exact absurd (hready ▸ Lobby.liveness_of_foldl_inspect hlive) List.not_mem_nil
    case alike => exact ⟨fs, List.nil_subset fs, hpassed⟩
  exact hmade.comeToRest rfl

/-- **Both sides come to rest abreast after every turn in which nobody is unheard.** -/
theorem takeTurn (h : Abreast x b p first r s v w []) (hready : w.lobby.ready = [])
    (hunheard : Unheard (s.takeTurn b t)) :
    Rest x b p first (r.takeTurn b t) (s.takeTurn b t) := by
  have hstay : Rest x b p first r s := h.comeToRest rfl
  obtain ⟨es, hlike⟩ := h.like
  cases t with
  | join a =>
    have hlength : s.fabric.members.length = r.fabric.members.length := by
      rw [h.worker.members, h.inline.members, hlike.members]
    simp only [Schedule.takeTurn, hlength]
    split
    · next ha => exact h.join hready (by rwa [← h.worker.members, hlength])
    · exact hstay
  | leave a => exact h.leave a
  | setClock now => exact h.setClock now
  | elapse time => exact h.elapse time
  | inject m =>
    simp only [Schedule.takeTurn, h.inline.carryOut_inject, h.worker.carryOut_inject] at hunheard ⊢
    cases hcarried : Bus.carried m with
    | ok n =>
      rw [hcarried] at hunheard
      exact h.take hready hunheard
    | error fault => exact hstay
  | pass order =>
    have hleft : (r.fabric.engine 0).directory = w.engine.directory := by
      rw [h.inline.engine, hlike.engine]
      rfl
    have hright : (s.fabric.engine 0).directory = w.engine.directory := by
      rw [h.worker.engine]
      rfl
    simp only [Schedule.takeTurn, hleft, hright]
    split
    · next horder => exact h.pass hready horder
    · exact hstay

end Abreast

end Overlay
