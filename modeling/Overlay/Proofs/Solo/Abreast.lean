import Overlay.Proofs.Schedules
import Overlay.Proofs.Solo.Late

/-!
# Two lone engines abreast

The tasks of a lone engine that delivers at once, and of one that has a worker, are run until none is
ready. The one with a worker has more to do: it delivers what waits between other tasks. Such a task
is none of the other engine's, which has delivered that already; every other task is run on both sides
(`Abreast.work`, `Abreast.thread`, `Abreast.liveness`). What one side would be after it had delivered
what waits is like what the other one is, and so both come to rest in like states
(`Abreast.comeToRest`).
-/

namespace Overlay

/-! ## Tasks on the state -/

namespace Solo

/-- The time of the next liveness pass is set. -/
def schedulePass (v : Solo) (due : Nat) : Solo :=
  setTimer { v with engine := { v.engine with nextPass := some due } } (firingTime due) (.liveness 0)

/-- The liveness pass that is due, the messages for the listeners delivered as they come up. -/
def tickAtOnce (v : Solo) : Solo :=
  match v.engine.nextPass with
  | none => v
  | some due => (v.passAtOnce v.engine.directory.remotes.toList).schedulePass
      (due + v.engine.settings.probePeriod.nanos)

/-- The liveness pass that is due, and the messages for the listeners that are left by it. -/
def tick (v : Solo) : Solo × List Message :=
  match v.engine.nextPass with
  | none => (v, [])
  | some due =>
    let passed := v.pass [] v.engine.directory.remotes.toList
    (passed.1.schedulePass (due + v.engine.settings.probePeriod.nanos), passed.2)

/-- The task whose turn it is. -/
def pop (v : Solo) : Solo :=
  { v with lobby := { v.lobby with ready := v.lobby.ready.tail } }

def clearTimers (v : Solo) (k : Task) : Solo :=
  { v with lobby := { v.lobby with timers := v.lobby.timers.filter (·.2 ≠ k) } }

variable {v w : Solo} {ts : List Thread} {t : ThreadId} {j : Join} {d e due : Nat} {m : Message}
  {rest : List Task} {first : Nat} {ds : Draws} {waiting : List Message}

theorem Like.pop (h : Like first ds v w) : Like first ds v.pop w.pop := by
  obtain ⟨board, heven, hlobby⟩ := h.lobby
  exact { h with
    blind := h.blind
    lobby := ⟨board, heven, by rw [Solo.pop, hlobby]; rfl⟩ }

theorem Like.setTimer (h : Like first ds v w) (time : Nat) (k : Task) :
    Like first ds (v.setTimer time k) (w.setTimer time k) :=
  { h with
    blind := h.blind
    lobby := h.lobby.setTimer time k }

theorem Like.schedulePass (h : Like first ds v w) (due : Nat) :
    Like first ds (v.schedulePass due) (w.schedulePass due) := by
  unfold Solo.schedulePass
  rw [h.engine]
  exact (h.setEngine _).setTimer _ _

theorem Orderly.schedulePass (h : v.Orderly ts) (due : Nat) : (v.schedulePass due).Orderly ts :=
  { h with lobby := h.lobby.setTimer _ }

theorem Orderly.pop (h : v.Orderly ts) (hready : v.lobby.ready = .liveness 0 :: rest) :
    v.pop.Orderly ts := by
  have hpopped := h.lobby.pop hready
  exact { h with lobby := by rw [Solo.pop, hready]; exact hpopped }

/-- Faults are delivered before the next liveness pass is scheduled or after that. -/
theorem schedulePass_settle (h : ∀ m ∈ waiting, m.kind = .fault) :
    (v.schedulePass due).settle waiting = (v.settle waiting).schedulePass due := by
  have hrespondents : (v.schedulePass due).respondents = v.respondents := rfl
  have hnoted : (v.schedulePass due).allNoted waiting = (v.allNoted waiting).schedulePass due := by
    clear h hrespondents
    unfold allNoted
    induction waiting generalizing v with
    | nil => rfl
    | cons m waiting ih => exact ih (v := v.noted m)
  rw [settle_faults h, settle_faults h, hrespondents, hnoted]
  rfl

theorem fault_of_mem_tick (hm : m ∈ v.tick.2) : m.kind = .fault := by
  unfold tick at hm
  split at hm
  · cases hm
  · exact fault_of_mem_pass (fun n hn => absurd hn List.not_mem_nil) hm

theorem Orderly.tick (h : v.Orderly ts) : v.tick.1.Orderly ts := by
  unfold Solo.tick
  split
  · exact h
  · exact (h.stays stays_pass).schedulePass _

theorem liveness_of_tick (h : .liveness 0 ∈ v.tick.1.lobby.ready) : .liveness 0 ∈ v.lobby.ready := by
  unfold Solo.tick at h
  split at h
  · exact h
  · have hstays : v.Stays (v.pass [] v.engine.directory.remotes.toList).1 := stays_pass
    obtain ⟨ms, hms⟩ := hstays.lobby
    have hpassed : .liveness 0 ∈ (v.pass [] v.engine.directory.remotes.toList).1.lobby.ready := h
    rw [hms] at hpassed
    exact Lobby.liveness_of_foldl_inspect hpassed

/-- A pass that is due leaves both alike. -/
theorem Like.tick (h : Like first ds v w) :
    Alike first ds v.tickAtOnce (w.tick.1.settle w.tick.2) := by
  have hfaults : ∀ m ∈ (w.pass [] v.engine.directory.remotes.toList).2, m.kind = .fault := fun m hm =>
    fault_of_mem_pass (fun n hn => absurd hn List.not_mem_nil) hm
  unfold tickAtOnce Solo.tick
  rw [h.engine]
  cases v.engine.nextPass with
  | none => exact h.alike
  | some due =>
    dsimp only
    rw [schedulePass_settle hfaults]
    exact (h.pass _).bind fun _ _ hlike => (hlike.schedulePass _).alike

/-- A thread whose wait is over is seated. -/
theorem resume_popped (start : Nat) (hover : t ∈ v.lobby.confirmed ∨ d ≤ v.lobby.now) :
    (v.pop.clearTimers (.thread t)).resume t j start d =
      (v.seat j t, .over (.joined (v.lobby.confirmed.contains t) (v.lobby.now - start))) := by
  unfold resume
  by_cases hconfirmed : v.lobby.confirmed.contains t = true
  case pos =>
    rw [hconfirmed]
    exact if_pos hconfirmed
  case neg =>
    have hmem : t ∉ v.lobby.confirmed := fun hmem => hconfirmed (List.contains_iff_mem.2 hmem)
    have hkept : v.lobby.confirmed.filter (· ≠ t) = v.lobby.confirmed :=
      List.filter_eq_self.2 fun u hu => decide_eq_true fun hut => hmem (hut ▸ hu)
    have hseat : v.seat j t = (v.pop.clearTimers (.thread t)).finishJoin j t := by
      unfold seat Lobby.dismiss
      rw [hkept]
      rfl
    rw [hseat, Bool.eq_false_iff.2 hconfirmed]
    exact (if_neg hconfirmed).trans (if_pos (hover.resolve_left hmem))

end Solo

/-! ## Tasks in the fabric -/

namespace Fabric

variable {f : Fabric} {v w : Solo} {x : GatewayId} {b : BusId} {p : SocketId} {mode : Dispatch}
  {awake : Bool} {waiting : List Message} {k : Task} {rest : List Task} {t : ThreadId} {j : Join}
  {start d due : Nat}

namespace Shows

/-- What is ready on both sides. -/
theorem ready_of_asleep (h : Shows x b p mode false f v waiting) : f.ready = v.lobby.ready := by
  rw [← h.lobby]
  refine (List.filter_eq_self.2 fun k hk => decide_eq_true ?_).symm
  rintro rfl
  exact absurd (h.worker.1 hk) Bool.false_ne_true

theorem ready_cons (h : Shows x b p mode awake f v waiting) (hready : f.ready = k :: rest)
    (hk : k ≠ .worker 0) : v.lobby.ready = k :: rest.filter (· ≠ .worker 0) := by
  rw [← h.lobby, lobbyAt, hready]
  simp [hk]

theorem pop (h : Shows x b p mode awake f v waiting) (hready : f.ready = k :: rest)
    (hk : k ≠ .worker 0) : Shows x b p mode awake { f with ready := rest } v.pop waiting :=
  { h with
    lobby := by
      have htail : rest.filter (· ≠ .worker 0) = v.lobby.ready.tail := by
        rw [h.ready_cons hready hk, List.tail_cons]
      have hlobby := congrArg (fun c : Lobby => { c with ready := v.lobby.ready.tail }) h.lobby
      refine Eq.trans ?_ hlobby
      exact congrArg (fun ready => Lobby.mk _ _ ready _ _ _) htail
    nodup := (List.nodup_cons.1 (hready ▸ h.nodup)).2
    worker := by
      rw [← h.worker, hready]
      simp [Ne.symm hk] }

/-- The worker's task is none of the lobby's. -/
theorem popWorker (h : Shows x b p mode true f v waiting) (hready : f.ready = .worker 0 :: rest) :
    Shows x b p mode false { f with ready := rest } v waiting :=
  { h with
    lobby := by
      rw [← h.lobby, ← lobbyAt_worker, ← hready]
    nodup := (List.nodup_cons.1 (hready ▸ h.nodup)).2
    worker := by simpa using (List.nodup_cons.1 (hready ▸ h.nodup)).1 }

theorem setTimer (h : Shows x b p mode awake f v waiting) (time : Nat) (k : Task) :
    Shows x b p mode awake (f.setTimer time k) (v.setTimer time k) waiting :=
  { h with lobby := by rw [Solo.setTimer, ← h.lobby]; rfl }

theorem clearTimers (h : Shows x b p mode awake f v waiting) (k : Task) :
    Shows x b p mode awake (f.clearTimers k) (v.clearTimers k) waiting :=
  { h with lobby := by rw [Solo.clearTimers, ← h.lobby]; rfl }

theorem schedulePass (h : Shows x b p mode awake f v waiting) (due : Nat) :
    Shows x b p mode awake (f.schedulePass 0 due) (v.schedulePass due) waiting := by
  have hset := h.setEngine { v.engine with nextPass := some due } waiting rfl rfl rfl rfl
  rw [Fabric.schedulePass, h.engine]
  exact hset.setTimer _ _

/-- The pass that is due looks at all contacts that are known. -/
theorem tick_eq (h : Shows x b p mode awake f v waiting) :
    f.tick 0 = match v.engine.nextPass with
      | none => f
      | some due => (f.pass 0 v.engine.directory.remotes.toList).schedulePass 0
          (due + v.engine.settings.probePeriod.nanos) := by
  unfold Fabric.tick Fabric.probe
  rw [h.engine]
  rfl

theorem tick_inline (h : Shows x b p .inline false f v []) (hv : v.Registered) :
    Shows x b p .inline false (f.tick 0) v.tickAtOnce [] := by
  rw [h.tick_eq]
  unfold Solo.tickAtOnce
  cases v.engine.nextPass with
  | none => exact h
  | some due => exact (h.pass_inline hv (ordered_of_perm (List.Perm.refl _))).schedulePass _

theorem tick_worker (h : Shows x b p .worker false f v []) (hv : v.Registered) :
    Shows x b p .worker (!v.tick.2.isEmpty) (f.tick 0) v.tick.1 v.tick.2 := by
  rw [h.tick_eq]
  unfold Solo.tick
  cases v.engine.nextPass with
  | none => exact h
  | some due =>
    have hpassed : Shows x b p .worker (!(v.pass [] v.engine.directory.remotes.toList).2.isEmpty)
        (f.pass 0 v.engine.directory.remotes.toList) (v.pass [] v.engine.directory.remotes.toList).1
        (v.pass [] v.engine.directory.remotes.toList).2 :=
      Shows.pass_worker h hv (ordered_of_perm (List.Perm.refl _))
    exact hpassed.schedulePass _

end Shows

end Fabric

/-! ## Tasks of a schedule -/

namespace Schedule

open Fabric

variable {s r : Schedule} {f : Fabric} {v w : Solo} {x : GatewayId} {b : BusId} {p : SocketId}
  {mode : Dispatch} {awake : Bool} {waiting : List Message} {k : Task} {rest : List Task}
  {t : ThreadId} {j : Join} {start d due : Nat} {outcome : Outcome}

/-- A thread goes on with a join, and that is over. -/
theorem advance_of_resumed (ht : s.threads[t]? = some (.waiting j start d))
    (hover : (s.fabric.clearTimers (.thread t)).resume t (.join j start d none) =
      (f, .over outcome)) :
    s.advance t = ⟨f, s.threads.set t (.ended outcome)⟩ := by
  have hthread : s.thread t = .waiting j start d := by simp [thread, List.getD, ht]
  simp only [advance, hthread, Thread.waiting, hover, proceed]
  exact finish_of_parent (s := s.withFabric f) ht rfl _

/-- **A thread whose wait is over is seated.** -/
theorem shows_thread (h : Shows x b p mode awake s.fabric v waiting)
    (hready : s.fabric.ready = .thread t :: rest) (ht : s.threads[t]? = some (.waiting j start d))
    (hj : j.engine = 0) (hover : t ∈ v.lobby.confirmed ∨ d ≤ v.lobby.now) :
    (s.turn (.thread t) rest).threads = s.threads.set t
        (.ended (.joined (v.lobby.confirmed.contains t) (v.lobby.now - start))) ∧
      Shows x b p mode awake (s.turn (.thread t) rest).fabric (v.seat j t) waiting := by
  have hpopped := (h.pop hready nofun).clearTimers (.thread t)
  obtain ⟨hend, hseated⟩ := hpopped.resume hj t start d
  rw [Solo.resume_popped start hover] at hend hseated
  obtain ⟨f, hf⟩ : ∃ f, (clearTimers { s.fabric with ready := rest } (.thread t)).resume t
      (.join j start d none) = (f, .over (.joined (v.lobby.confirmed.contains t)
        (v.lobby.now - start))) := ⟨_, Prod.ext rfl hend⟩
  have hturn : s.turn (.thread t) rest = ⟨f, s.threads.set t
      (.ended (.joined (v.lobby.confirmed.contains t) (v.lobby.now - start)))⟩ :=
    advance_of_resumed (s := s.withFabric { s.fabric with ready := rest }) ht hf
  rw [hf] at hseated
  rw [hturn]
  exact ⟨rfl, hseated⟩

end Schedule

/-! ## Side by side -/

/-- Two schedules with a lone engine each, the first one without a worker and the second one with a
worker that has messages to deliver. -/
structure Abreast (x : GatewayId) (b : BusId) (p : SocketId) (first : Nat) (r s : Schedule)
    (v w : Solo) (waiting : List Message) : Prop where
  inline : Fabric.Shows x b p .inline false r.fabric v []
  worker : Fabric.Shows x b p .worker (!waiting.isEmpty) s.fabric w waiting
  threads : s.threads = r.threads
  orderly : w.Orderly r.threads
  harmless : w.Harmless r.threads waiting
  alike : Solo.Alike first [] v (w.settle waiting)

namespace Abreast

open Fabric

variable {x : GatewayId} {b : BusId} {p : SocketId} {first : Nat} {r s : Schedule} {v w : Solo}
  {waiting : List Message} {k : Task} {rest : List Task} {t : ThreadId}

/-- What is ready on the other side is ready on this side, perhaps with more behind it. -/
theorem ready_inline (h : Abreast x b p first r s v w waiting) :
    w.lobby.ready <+: r.fabric.ready := by
  obtain ⟨es, -, hlike⟩ := h.alike
  obtain ⟨board, -, hlobby⟩ := hlike.lobby
  obtain ⟨ms, hms⟩ := Solo.lobby_settle (v := w) waiting
  have hready : v.lobby.ready = (w.settle waiting).lobby.ready := by
    rw [hlobby]
    rfl
  rw [h.inline.ready_of_asleep, hready, hms]
  exact Lobby.prefix_foldl_inspect ms

theorem registered (h : Abreast x b p first r s v w waiting) : v.Registered := by
  obtain ⟨es, -, hlike⟩ := h.alike
  have hsettled : (w.settle waiting).Registered := h.orderly.registered.stays Solo.stays_settle
  intro a e ha
  rw [← hlike.member] at ha ⊢
  have hlocals : v.engine.directory = (w.settle waiting).engine.directory := by rw [hlike.engine]
  rw [hlocals]
  exact hsettled a e ha

/-- The worker delivers a message. The other engine has delivered it already. -/
theorem work (h : Abreast x b p first r s v w waiting)
    (hready : s.fabric.ready = .worker 0 :: rest) :
    ∃ m later, waiting = m :: later ∧
      Abreast x b p first r (s.turn (.worker 0) rest) v (w.deliver m) later := by
  cases waiting with
  | nil =>
    have hasleep := h.worker.worker.1 (hready ▸ List.mem_cons_self)
    cases hasleep
  | cons m later =>
    refine ⟨m, later, rfl, ?_⟩
    have hworked := (h.worker.popWorker hready).work h.orderly.registered
    have hstays : w.Stays (w.deliver m) := Solo.stays_deliver
    constructor
    case inline => exact h.inline
    case worker => exact hworked
    case threads => exact h.threads
    case orderly => exact h.orderly.stays hstays
    case harmless =>
      obtain ⟨ms, hms⟩ := hstays.lobby
      have hnone : .liveness 0 ∉ (w.deliver m).lobby.ready := by
        rw [hms]
        intro hlive
        cases h.harmless.liveness (Lobby.liveness_of_foldl_inspect hlive)
      refine ⟨fun hlive => absurd hlive hnone, .inl ?_⟩
      rcases h.harmless.messages with hfaults | ⟨n, hone, -⟩
      · exact fun n hn => hfaults n (List.mem_cons_of_mem m hn)
      · obtain ⟨-, rfl⟩ := List.cons.inj hone
        exact fun n hn => absurd hn List.not_mem_nil
    case alike => exact h.alike

/-- A thread is seated on both sides. -/
theorem thread (h : Abreast x b p first r s v w waiting)
    (hready : s.fabric.ready = .thread t :: rest) : ∃ j d rest' outcome,
      r.fabric.ready = .thread t :: rest' ∧ Joins r.threads t j d ∧
      (r.turn (.thread t) rest').threads = r.threads.set t (.ended outcome) ∧
      Abreast x b p first (r.turn (.thread t) rest') (s.turn (.thread t) rest) (v.seat j t)
        (w.seat j t) waiting := by
  have hfirst := h.worker.ready_cons hready nofun
  obtain ⟨rest', hrest⟩ := h.ready_inline
  rw [hfirst, List.cons_append] at hrest
  rcases h.orderly.lobby.ready (hfirst ▸ List.mem_cons_self) with
    hk | ⟨t', s', d, hk, ⟨j, ⟨start, ht⟩, -⟩, hover⟩
  · cases hk
  obtain rfl := Task.thread.inj hk
  have hjoins : Joins r.threads t j d := ⟨start, ht⟩
  have hj := (h.orderly.joining hjoins).1
  obtain ⟨es, -, hlike⟩ := h.alike
  -- What the other side has delivered already may have released threads, but not this one.
  have hconfirmed : t ∈ v.lobby.confirmed ↔ t ∈ w.lobby.confirmed := by
    rw [← hlike.confirmed]
    exact h.harmless.confirmed_settle hfirst
  have hnow : v.lobby.now = w.lobby.now := by
    obtain ⟨ms, hms⟩ := Solo.lobby_settle (v := w) waiting
    rw [← hlike.now, hms, Lobby.now_foldl_inspect]
  obtain ⟨hleft, hinline⟩ := Schedule.shows_thread h.inline hrest.symm ht hj
    (by rw [hconfirmed, hnow]; exact hover)
  obtain ⟨hright, hworker⟩ := Schedule.shows_thread h.worker hready (h.threads ▸ ht) hj hover
  refine ⟨j, d, _, _, hrest.symm, hjoins, hleft, ?_⟩
  constructor
  case inline => exact hinline
  case worker => exact hworker
  case threads =>
    have hsame : w.lobby.confirmed.contains t = v.lobby.confirmed.contains t := by
      rw [Bool.eq_iff_iff, List.contains_iff_mem, List.contains_iff_mem, hconfirmed]
    rw [hright, hleft, h.threads, hnow, hsame]
  case orderly =>
    rw [hleft]
    exact h.orderly.seat hjoins hfirst
  case harmless =>
    rw [hleft]
    exact h.harmless.seat hjoins hfirst h.orderly.lobby.nodup
  case alike =>
    obtain ⟨k, heven⟩ := h.harmless.settle_seat h.orderly hjoins hfirst
    exact ⟨es, List.nil_subset es, ((hlike.seat j t).drawn_right k).even heven⟩

/-- A liveness pass is made on both sides when nothing waits for the listeners. -/
theorem liveness (h : Abreast x b p first r s v w waiting)
    (hready : s.fabric.ready = .liveness 0 :: rest) : ∃ rest',
      r.fabric.ready = .liveness 0 :: rest' ∧
      (r.turn (.liveness 0) rest').threads = r.threads ∧
      .liveness 0 ∉ w.pop.tick.1.lobby.ready ∧
      Abreast x b p first (r.turn (.liveness 0) rest') (s.turn (.liveness 0) rest)
        v.pop.tickAtOnce w.pop.tick.1 w.pop.tick.2 := by
  have hfirst := h.worker.ready_cons hready nofun
  obtain ⟨rest', hrest⟩ := h.ready_inline
  rw [hfirst, List.cons_append] at hrest
  obtain rfl := h.harmless.liveness (hfirst ▸ List.mem_cons_self)
  obtain ⟨es, -, hlike⟩ := h.alike
  have hlike : Solo.Like first es v w := hlike
  have hpopped := h.orderly.pop hfirst
  have hticked : .liveness 0 ∉ w.pop.tick.1.lobby.ready := by
    have hnone : .liveness 0 ∉ w.pop.lobby.ready := by
      change .liveness 0 ∉ w.lobby.ready.tail
      rw [hfirst, List.tail_cons]
      exact (List.nodup_cons.1 (hfirst ▸ h.orderly.lobby.nodup)).1
    exact fun hlive => hnone (Solo.liveness_of_tick hlive)
  refine ⟨_, hrest.symm, rfl, hticked, ?_⟩
  constructor
  case inline => exact (h.inline.pop hrest.symm nofun).tick_inline h.registered
  case worker => exact Shows.tick_worker (h.worker.pop hready nofun) h.orderly.registered
  case threads => exact h.threads
  case orderly => exact hpopped.tick
  case harmless =>
    exact ⟨fun hlive => absurd hlive hticked, .inl fun m hm => Solo.fault_of_mem_tick hm⟩
  case alike =>
    obtain ⟨fs, -, hnext⟩ := hlike.pop.tick
    exact ⟨fs, List.nil_subset fs, hnext⟩

/-! ## Until none is ready -/

def isWaiting (y : Thread) : Bool := y.wait.isSome

theorem countP_set {ts : List Thread} {j : Join} {d : Nat} (ht : Joins ts t j d) (outcome : Outcome) :
    (ts.set t (.ended outcome)).countP isWaiting + 1 = ts.countP isWaiting := by
  obtain ⟨start, ht⟩ := ht
  obtain ⟨hlt, hget⟩ := List.getElem?_eq_some_iff.1 ht
  have hpos : 0 < ts.countP isWaiting :=
    List.countP_pos_iff.2 ⟨_, List.getElem_mem hlt, by rw [hget]; rfl⟩
  rw [List.countP_set hlt, hget]
  simp only [isWaiting, Thread.waiting, Thread.ended]
  simp
  omega

/-- Both sides come to rest, and are abreast then. -/
def Rest (x : GatewayId) (b : BusId) (p : SocketId) (first : Nat) (r s : Schedule) : Prop :=
  ∃ r' s' v' w', r.Settles r' ∧ s.Settles s' ∧ Abreast x b p first r' s' v' w' [] ∧
    w'.lobby.ready = []

theorem Rest.turn {r s : Schedule} {k k' : Task} {rest rest' : List Task}
    (h : Rest x b p first (r.turn k rest) (s.turn k' rest')) (hr : r.fabric.ready = k :: rest)
    (hs : s.fabric.ready = k' :: rest') : Rest x b p first r s := by
  obtain ⟨r', s', v', w', hr', hs', habreast, hready⟩ := h
  exact ⟨r', s', v', w', .turn hr hr', .turn hs hs', habreast, hready⟩

theorem Rest.work {r s : Schedule} {k : Task} {rest : List Task}
    (h : Rest x b p first r (s.turn k rest)) (hs : s.fabric.ready = k :: rest) :
    Rest x b p first r s := by
  obtain ⟨r', s', v', w', hr', hs', habreast, hready⟩ := h
  exact ⟨r', s', v', w', hr', .turn hs hs', habreast, hready⟩

/-- Nothing is left to do. -/
theorem rest_of_idle (h : Abreast x b p first r s v w waiting) (hready : s.fabric.ready = []) :
    Rest x b p first r s := by
  have hnone : ¬(!waiting.isEmpty) = true := by
    rw [← h.worker.worker, hready]
    exact List.not_mem_nil
  obtain rfl : waiting = [] := by simpa using hnone
  have hw : w.lobby.ready = [] := by
    rw [← h.worker.lobby, lobbyAt, hready, List.filter_nil]
  obtain ⟨es, -, hlike⟩ := h.alike
  obtain ⟨board, -, hlobby⟩ := hlike.lobby
  have hv : v.lobby.ready = w.lobby.ready := (congrArg Lobby.ready hlobby).symm
  have hr : r.fabric.ready = [] := by rw [h.inline.ready_of_asleep, hv, hw]
  exact ⟨r, s, v, w, .refl hr, .refl hready, h, hw⟩

/-- Every task that is run leaves a message less to deliver, or a thread less that waits. -/
theorem rest_of_quiet {n : Nat} (h : Abreast x b p first r s v w waiting)
    (hquiet : .liveness 0 ∉ w.lobby.ready)
    (hn : r.threads.countP isWaiting + waiting.length = n) : Rest x b p first r s := by
  -- No task that is left adds to what is counted: the worker delivers, and a thread is over.
  induction n using Nat.strongRecOn generalizing r s v w waiting with
  | ind n ih =>
    cases hready : s.fabric.ready with
    | nil => exact h.rest_of_idle hready
    | cons k rest =>
      by_cases hk : k = .worker 0
      case pos =>
        subst hk
        obtain ⟨m, later, rfl, hnext⟩ := h.work hready
        have hstill : .liveness 0 ∉ (w.deliver m).lobby.ready := by
          obtain ⟨ms, hms⟩ := (Solo.stays_deliver (v := w) (m := m)).lobby
          rw [hms]
          exact fun hlive => hquiet (Lobby.liveness_of_foldl_inspect hlive)
        rw [List.length_cons] at hn
        exact (ih _ (by omega) hnext hstill rfl).work hready
      case neg =>
        have hfirst := h.worker.ready_cons hready hk
        rcases h.orderly.lobby.ready (hfirst ▸ List.mem_cons_self) with rfl | ⟨t, s', d, rfl, -⟩
        · exact absurd (hfirst ▸ List.mem_cons_self) hquiet
        · obtain ⟨j, d, rest', outcome, hr, ht, hthreads, hnext⟩ := h.thread hready
          have hfewer := countP_set ht outcome
          have hstill : .liveness 0 ∉ (w.seat j t).lobby.ready := fun hlive =>
            hquiet (List.mem_of_mem_tail hlive)
          rw [← hthreads] at hfewer
          exact (ih _ (by omega) hnext hstill rfl).turn hr hready

/-- **Whatever is ready, both sides come to rest abreast.** -/
theorem comeToRest {n : Nat} (h : Abreast x b p first r s v w waiting)
    (hn : r.threads.countP isWaiting = n) : Rest x b p first r s := by
  -- A pass may leave any number of faults, so only threads are counted until it has been made.
  induction n using Nat.strongRecOn generalizing r s v w waiting with
  | ind n ih =>
    by_cases hquiet : .liveness 0 ∈ w.lobby.ready
    case neg => exact h.rest_of_quiet hquiet rfl
    obtain rfl := h.harmless.liveness hquiet
    cases hready : s.fabric.ready with
    | nil => exact h.rest_of_idle hready
    | cons k rest =>
      have hk : k ≠ .worker 0 := by
        rintro rfl
        obtain ⟨m, later, hnil, -⟩ := h.work hready
        cases hnil
      have hfirst := h.worker.ready_cons hready hk
      rcases h.orderly.lobby.ready (hfirst ▸ List.mem_cons_self) with rfl | ⟨t, s', d, rfl, -⟩
      · obtain ⟨rest', hr, -, hdone, hnext⟩ := h.liveness hready
        exact (hnext.rest_of_quiet hdone rfl).turn hr hready
      · obtain ⟨j, d, rest', outcome, hr, ht, hthreads, hnext⟩ := h.thread hready
        have hfewer := countP_set ht outcome
        rw [← hthreads] at hfewer
        exact (ih _ (by omega) hnext rfl).turn hr hready

end Abreast

end Overlay
