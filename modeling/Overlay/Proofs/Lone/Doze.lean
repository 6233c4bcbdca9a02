import Mathlib.Algebra.BigOperators.Group.Finset.Basic
import Mathlib.Algebra.Order.BigOperators.Group.Finset
import Overlay.Proofs.Lone.Join

/-!
# Liveness passes that find nothing to do

As long as no contact is quiet, liveness passes do nothing but set the timers of the next ones
(`Fabric.Doze`). Each is set a period later than the one before, so up to a given time there is room
for only so many of them (`Fabric.ahead`).
-/

namespace Overlay

/-- There is some time between two liveness passes. -/
theorem Settings.probePeriod_pos (s : Settings) : 0 < s.probePeriod.nanos := by
  unfold probePeriod Duration.max
  split
  · decide
  · next h => exact Nat.lt_of_le_of_lt (Nat.zero_le _) (Nat.lt_of_not_le h)

/-- What fires by a time is due by then. -/
theorem le_of_firingTime_le {due time : Nat} (h : firingTime due ≤ time) :
    due ≤ time * nanosPerTick := by
  unfold firingTime nanosPerTick at *
  omega

theorem firingTime_mul (millis : Nat) : firingTime (millis * nanosPerTick) = millis := by
  unfold firingTime nanosPerTick
  omega

namespace Fabric

variable {f g h w : Fabric} {a : AgentId} {d e : EngineId} {j : Join} {time : Nat}

/-! ## Passes that find nothing to do -/

/-- Time has passed, and liveness passes have been made that found nothing to do. -/
structure Doze (f g : Fabric) : Prop where
  rest : g = { f with
    now := g.now, engines := g.engines, ready := g.ready, timers := g.timers }
  length : g.engines.length = f.engines.length
  engine : ∀ d, g.engine d = { f.engine d with nextPass := (g.engine d).nextPass }

namespace Doze

theorem refl (f : Fabric) : f.Doze f := ⟨rfl, rfl, fun _ => rfl⟩

theorem trans (hfg : f.Doze g) (hgh : g.Doze h) : f.Doze h where
  rest := by rw [hgh.rest, hfg.rest]
  length := hgh.length.trans hfg.length
  engine := fun d => by rw [hgh.engine, hfg.engine]

theorem calm (hg : f.Doze g) (hf : f.Calm) : g.Calm :=
  hf.of_seen (fun d => by rw [hg.engine]) (fun d => by rw [hg.engine])
    (fun d => by rw [hg.engine]) fun d s => Nat.le_of_eq (by rw [hg.engine])

theorem still (hg : f.Doze g) : f.Still g where
  length := hg.length
  fixture := fun d => by rw [hg.engine]; rfl
  conduit := fun hx => by rw [hg.rest]; exact hx
  sockets := fun b => by rw [hg.rest]; rfl
  boards := by rw [hg.rest]
  criterion := fun b => by rw [hg.rest]; rfl

/-- A join stays under way meanwhile. -/
theorem underway (hg : w.Doze g) (hw : Underway a e j f w) : Underway a e j f g where
  toStill := hw.toStill.trans hg.still
  agent := hw.agent
  engine := hw.engine
  members := by
    rw [hg.rest]
    exact hw.members
  fanout := by
    rw [hg.engine]
    exact hw.fanout
  registered := by
    rw [hg.engine]
    exact hw.registered
  owner := by
    rw [hg.rest]
    exact hw.owner
  current := by
    rw [hg.rest]
    exact hw.current

theorem announced (hg : w.Doze g) (hw : Announced a e f w) : Announced a e f g := by
  rw [hg.rest]
  exact hw

/-- What a join has left behind stays so. -/
theorem completes (hg : w.Doze g) (hw : Completes a e f w) : Completes a e f g where
  joined := by
    rw [hg.rest]
    exact hw.joined
  responder := by
    rw [hg.engine]
    exact hw.responder
  registered := by
    rw [hg.engine]
    exact hw.registered
  pending := by
    rw [hg.still.board_engine, board, hg.rest]
    exact hw.pending
  announced := hg.announced hw.announced

end Doze

/-- A pass that finds nothing to do does nothing. -/
theorem probe_of_calm (hf : f.Calm) (e : EngineId) : f.probe e = f := by
  have hpass : ∀ order : List (Identity × Slot),
      (∀ c ∈ order, (f.engine e).isQuiet c.2 = false) → order.foldl (probeContact e) f = f := by
    intro order horder
    induction order with
    | nil => rfl
    | cons c order ih =>
      have hspared : probeContact e f c = f := by
        simp [probeContact, horder c List.mem_cons_self]
      rw [List.foldl_cons, hspared]
      exact ih fun k hk => horder k (List.mem_cons_of_mem _ hk)
  exact hpass _ (hf e)

theorem tick_of_calm (hf : f.Calm) (e : EngineId) : f.tick e =
    match (f.engine e).nextPass with
    | none => f
    | some due => f.schedulePass e (due + (f.engine e).settings.probePeriod.nanos) := by
  cases hpass : (f.engine e).nextPass <;> simp only [tick, probe_of_calm hf, hpass]

theorem engine_schedulePass (he : e < f.engines.length) (deadline : Nat) (d : EngineId) :
    (f.schedulePass e deadline).engine d =
      if d = e then { f.engine e with nextPass := some deadline } else f.engine d := by
  by_cases hd : d = e
  · subst hd
    rw [if_pos rfl]
    exact engine_setEngine_self _ he
  · rw [if_neg hd]
    exact engine_setEngine_ne _ hd

theorem lt_of_nextPass {due : Nat} (h : (f.engine e).nextPass = some due) :
    e < f.engines.length := by
  refine Nat.lt_of_not_le fun hle => ?_
  rw [engine_of_length_le hle] at h
  contradiction

theorem doze_tick (hf : f.Calm) (e : EngineId) : f.Doze (f.tick e) := by
  rw [tick_of_calm hf]
  cases hdue : (f.engine e).nextPass with
  | none => exact .refl f
  | some due =>
    refine ⟨rfl, length_setEngine _, fun d => ?_⟩
    rw [engine_schedulePass (lt_of_nextPass hdue)]
    split
    · next hd => rw [hd]
    · rfl

theorem ready_tick (hf : f.Calm) (e : EngineId) : (f.tick e).ready = f.ready := by
  rw [tick_of_calm hf]
  cases (f.engine e).nextPass <;> rfl

theorem now_tick (hf : f.Calm) (e : EngineId) : (f.tick e).now = f.now := by
  rw [tick_of_calm hf]
  cases (f.engine e).nextPass <;> rfl

/-- A pass sets no timer but that of the next one. -/
theorem mem_timers_tick (hf : f.Calm) {x : Nat × Task} (hx : x ∈ (f.tick e).timers) :
    x ∈ f.timers ∨ x.2 = .liveness e := by
  rw [tick_of_calm hf] at hx
  cases hdue : (f.engine e).nextPass with
  | none =>
    rw [hdue] at hx
    exact .inl hx
  | some due =>
    rw [hdue] at hx
    rcases List.mem_append.1 hx with hx | hx
    · exact .inl hx
    · exact .inr (by rw [List.mem_singleton.1 hx])

theorem timers_subset_tick (hf : f.Calm) (e : EngineId) : f.timers ⊆ (f.tick e).timers := by
  rw [tick_of_calm hf]
  cases (f.engine e).nextPass with
  | none => exact List.Subset.refl _
  | some due => exact List.subset_append_left _ _

/-! ## How many passes there can be -/

/-- How many nanoseconds are left from the pass that is due to a time. -/
def slack (time : Nat) (x : Engine) : Nat :=
  match x.nextPass with
  | none => 0
  | some due => time * nanosPerTick + 1 - due

/-- More than the number of moments at which a timer can still fire up to a time. -/
def ahead (time : Nat) (f : Fabric) : Nat :=
  f.timers.countP (·.1 ≤ time) + ∑ d ∈ Finset.range f.engines.length, slack time (f.engine d)

/-- The timer of the next pass is paid for by the time that it takes. -/
theorem ahead_schedulePass_le {due period : Nat} (hdue : (f.engine e).nextPass = some due)
    (hperiod : 0 < period) : (f.schedulePass e (due + period)).ahead time ≤ f.ahead time := by
  have he := lt_of_nextPass hdue
  have hengine := engine_schedulePass he (due + period)
  have hlength : (f.schedulePass e (due + period)).engines.length = f.engines.length :=
    length_setEngine _
  have hself : slack time ((f.schedulePass e (due + period)).engine e) =
      time * nanosPerTick + 1 - (due + period) := by
    rw [hengine, if_pos rfl]
    rfl
  have hbefore : slack time (f.engine e) = time * nanosPerTick + 1 - due := by
    rw [slack, hdue]
  have hle : ∀ d ∈ Finset.range f.engines.length,
      slack time ((f.schedulePass e (due + period)).engine d) ≤ slack time (f.engine d) := by
    intro d _
    by_cases hd : d = e
    · subst hd
      omega
    · rw [hengine, if_neg hd]
  have htimers : (f.schedulePass e (due + period)).timers.countP (·.1 ≤ time) =
      f.timers.countP (·.1 ≤ time) + if firingTime (due + period) ≤ time then 1 else 0 := by
    rw [show (f.schedulePass e (due + period)).timers =
      f.timers ++ [(firingTime (due + period), .liveness e)] from rfl, List.countP_append]
    simp [List.countP_cons]
  rw [ahead, ahead, htimers, hlength]
  split
  · next hfires =>
    have hroom := le_of_firingTime_le hfires
    have hlt := Finset.sum_lt_sum hle ⟨e, Finset.mem_range.2 he, by omega⟩
    omega
  · have hsum := Finset.sum_le_sum hle
    omega

theorem ahead_tick_le (hf : f.Calm) (e : EngineId) (time : Nat) :
    (f.tick e).ahead time ≤ f.ahead time := by
  rw [tick_of_calm hf]
  cases hdue : (f.engine e).nextPass with
  | none => exact Nat.le_refl _
  | some due => exact ahead_schedulePass_le hdue (Settings.probePeriod_pos _)

end Fabric

end Overlay
