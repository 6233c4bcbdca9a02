import Overlay.Fabric.Schedule
import Overlay.Proofs.Mesh.Liveness
import Overlay.Proofs.Solo.Fabric

/-!
# Passes and the worker of a lone engine

A pass asks contacts that are known, so its pings come back to be dropped, and what it leaves for
the listeners are faults. Nobody answers a fault, so all that is left of those are the notes of the
recorders (`settle_faults`). The worker of a lone engine delivers the oldest message that waits for it
and is not woken again by that (`Shows.work`).
-/

namespace Overlay

/-! ## Passes -/

namespace Solo

variable {v w : Solo} {m : Message} {c : Identity × Slot} {order : List (Identity × Slot)}
  {waiting landed : List Message}

/-- A liveness pass, the messages for the listeners delivered as they come up. -/
def passAtOnce (v : Solo) (order : List (Identity × Slot)) : Solo :=
  order.foldl (fun v c => (v.probe c).1.settle (v.probe c).2) v

/-- A liveness pass, and the messages for the listeners that are left by it. -/
def pass (v : Solo) (waiting : List Message) : List (Identity × Slot) → Solo × List Message
  | [] => (v, waiting)
  | c :: order => (v.probe c).1.pass (waiting ++ (v.probe c).2) order

theorem stays_pass : v.Stays (v.pass waiting order).1 := by
  induction order generalizing v waiting with
  | nil => exact .refl v
  | cons c order ih => exact stays_probe.trans ih

/-- Nobody but the contact that is looked at is forgotten. -/
theorem isRemote_probe {i : Identity} (hi : v.engine.directory.isRemote i = true) (hne : i ≠ c.1) :
    (v.probe c).1.engine.directory.isRemote i = true := by
  have hasked : (v.fresh.2.echo (.ping v.fresh.1 v.engine.identity c.1)).engine.directory.isRemote
      i = true :=
    Directory.isRemote_touch.trans hi
  unfold probe evict
  split
  · split
    · next engine hevicted =>
      obtain rfl := evicted?_eq hevicted
      exact Directory.isRemote_removeRemote.trans (by simp [hne, hasked])
    · exact hasked
  · exact hi

/-! ## Faults -/

/-- What a listener notes of a message. -/
def note? (m : Message) : Hearer → Option (String × Message)
  | .recorder name => some (name, m)
  | .responder _ _ => none

def noted (v : Solo) (m : Message) : Solo :=
  { v with heard := (v.engine.fanout.audience.filterMap (note? m)).reverse ++ v.heard }

/-- All recorders note messages, and nobody answers them. -/
def allNoted (v : Solo) (waiting : List Message) : Solo :=
  waiting.foldl noted v

/-- The state after more identifiers have been drawn. -/
def drawn (v : Solo) (n : Nat) : Solo :=
  { v with supply := v.supply + n }

theorem drawn_drawn (n k : Nat) : (v.drawn n).drawn k = v.drawn (n + k) := by
  simp [drawn, Nat.add_assoc]

theorem allNoted_drawn (n : Nat) : (v.drawn n).allNoted waiting = (v.allNoted waiting).drawn n := by
  unfold allNoted
  induction waiting generalizing v with
  | nil => rfl
  | cons m waiting ih => exact ih (v := v.noted m)

/-- Whoever might answer draws an identifier before looking. -/
def respondents (v : Solo) : Nat :=
  v.engine.fanout.audience.countP fun l => (note? default l).isNone

/-- Nobody answers a fault. -/
theorem deliver_fault (hm : m.kind = .fault) : v.deliver m = (v.noted m).drawn v.respondents := by
  unfold deliver noted respondents
  generalize v.engine.fanout.audience = audience
  induction audience generalizing v with
  | nil => rfl
  | cons l audience ih =>
    rw [List.foldl_cons, ih]
    cases l with
    | recorder name => simp [call, note?, drawn]
    | responder a cloud =>
      have hreply : (v.member a).agent.reply? cloud v.fresh.1 m = none := by
        simp [Agent.reply?, hm]
      have hsilent : v.call m (.responder a cloud) = v.drawn 1 := by
        simp only [call, hreply]
        rfl
      simp [hsilent, List.filterMap_cons, note?, drawn, Nat.add_assoc, Nat.add_comm 1]

theorem settle_faults (h : ∀ m ∈ waiting, m.kind = .fault) :
    v.settle waiting = (v.allNoted waiting).drawn (waiting.length * v.respondents) := by
  unfold settle
  induction waiting generalizing v with
  | nil => simp [allNoted, drawn]
  | cons m waiting ih =>
    have hsame : ((v.noted m).drawn v.respondents).respondents = v.respondents := rfl
    rw [List.foldl_cons, deliver_fault (h m List.mem_cons_self),
      ih fun n hn => h n (List.mem_cons_of_mem m hn), allNoted_drawn, drawn_drawn, hsame,
      List.length_cons, Nat.succ_mul, Nat.add_comm]
    rfl

theorem engine_allNoted : (v.allNoted waiting).engine = v.engine := by
  unfold allNoted
  induction waiting generalizing v with
  | nil => rfl
  | cons m waiting ih => exact ih (v := v.noted m)

/-- What a pass leaves for the listeners are faults. -/
theorem fault_of_mem_probe (hm : m ∈ (v.probe c).2) : m.kind = .fault := by
  unfold probe evict at hm
  split at hm
  · split at hm
    · obtain rfl := List.mem_singleton.1 hm
      rfl
    · cases hm
  · cases hm

theorem fault_of_mem_pass (hwaiting : ∀ m ∈ waiting, m.kind = .fault)
    (hm : m ∈ (v.pass waiting order).2) : m.kind = .fault := by
  induction order generalizing v waiting with
  | nil => exact hwaiting m hm
  | cons c order ih =>
    refine ih (fun n hn => ?_) hm
    rcases List.mem_append.1 hn with hn | hn
    · exact hwaiting n hn
    · exact fault_of_mem_probe hn

end Solo

namespace Fabric

variable {f g : Fabric} {m : Message} {v w : Solo} {waiting landed : List Message}
  {x : GatewayId} {b : BusId} {p : SocketId} {mode : Dispatch} {c : Identity × Slot}
  {order : List (Identity × Slot)}

theorem Rests.evict (h : Rests x b p f v waiting mode) (hv : v.Registered) :
    Lands x b p (f.evictFrom 0 c.1 c.2) (v.evict c).1 waiting (v.evict c).2 mode := by
  have hevicted : (f.engine 0).evicted? c.1 c.2 =
      (v.engine.evicted? c.1 c.2).map (·.inMode mode waiting) := by
    rw [h.1.engine]
    unfold Engine.evicted?
    change (if v.engine.isLost c.2 && v.engine.directory.isRemote c.1 then _ else _) = _
    split <;> rfl
  unfold evictFrom Solo.evict
  rw [hevicted]
  cases hlost : v.engine.evicted? c.1 c.2 with
  | none => exact h.lands
  | some engine =>
    obtain rfl := Solo.evicted?_eq hlost
    have hset := h.1.setEngine
      { v.engine with directory := v.engine.directory.removeRemote c.1 } waiting rfl rfl rfl rfl
    obtain ⟨huuid, hfresh⟩ := hset.fresh
    simp only [Option.map_some, huuid]
    refine Rests.dispatch ⟨hfresh, h.2⟩ (hv.stays ?_)
    exact ⟨rfl, rfl, rfl, rfl, [], rfl⟩

/-- A pass looks at a contact that is known. -/
theorem Rests.probe (h : Rests x b p f v waiting mode) (hv : v.Registered)
    (hc : v.engine.directory.isRemote c.1 = true) :
    Lands x b p (probeContact 0 f c) (v.probe c).1 waiting (v.probe c).2 mode := by
  have hengine := h.1.engine
  have hquiet : (f.engine 0).isQuiet c.2 = v.engine.isQuiet c.2 := by rw [hengine]; rfl
  unfold probeContact Solo.probe
  rw [hquiet]
  by_cases hasked : v.engine.isQuiet c.2 = true
  case neg =>
    rw [if_neg hasked, if_neg hasked]
    exact h.lands
  rw [if_pos hasked, if_pos hasked]
  obtain ⟨huuid, hfresh⟩ := h.1.fresh
  have hidentity : (f.fresh.2.engine 0).identity = v.engine.identity := by
    rw [hfresh.engine]
    rfl
  have hnot : v.fresh.2.engine.admits (.ping v.fresh.1 v.engine.identity c.1) = false := by
    simp [Engine.admits, Message.ping, Message.plain, Solo.fresh, hc]
  have hpinged : Shows x b p mode (!waiting.isEmpty) (f.pingFrom 0 c.1)
      (v.fresh.2.echo (.ping v.fresh.1 v.engine.identity c.1)) waiting := by
    simp only [pingFrom, huuid, hidentity]
    exact hfresh.echo (Bus.carried_of_not_app (by simp [Message.ping, Message.plain])) hnot
  have hregistered := (hv.stays Solo.stays_fresh).stays
    (Solo.stays_echo (.ping v.fresh.1 v.engine.identity c.1))
  exact Rests.evict ⟨hpinged, h.2⟩ hregistered

/-- The contacts that a pass is to look at: they are known, and none comes up twice. -/
def Ordered (v : Solo) (order : List (Identity × Slot)) : Prop :=
  (∀ c ∈ order, v.engine.directory.isRemote c.1 = true) ∧ (order.map Prod.fst).Nodup

theorem ordered_of_perm (h : order.Perm v.engine.directory.remotes.toList) : Ordered v order := by
  constructor
  case left =>
    exact fun c hc => Directory.isRemote_iff.2 ⟨c.2, Register.mem_toList.1 (h.mem_iff.1 hc)⟩
  case right => exact (h.map Prod.fst).nodup_iff.2 v.engine.directory.remotes.nodup

theorem Ordered.rest (h : Ordered v (c :: order)) : Ordered (v.probe c).1 order := by
  obtain ⟨hknown, hnodup⟩ := h
  obtain ⟨hother, hrest⟩ := List.nodup_cons.1 hnodup
  refine ⟨fun d hd => Solo.isRemote_probe (hknown d (List.mem_cons_of_mem c hd)) ?_, hrest⟩
  rintro heq
  exact hother (List.mem_map.2 ⟨d, hd, heq⟩)

theorem Ordered.settle (h : Ordered v order) (hfault : ∀ m ∈ landed, m.kind = .fault) :
    Ordered (v.settle landed) order := by
  have hengine : (v.settle landed).engine = v.engine := by
    rw [Solo.settle_faults hfault]
    exact Solo.engine_allNoted
  rw [Ordered, hengine]
  exact h

theorem Shows.pass_inline (h : Shows x b p .inline false f v []) (hv : v.Registered)
    (horder : Ordered v order) :
    Shows x b p .inline false (f.pass 0 order) (v.passAtOnce order) [] := by
  unfold Fabric.pass Solo.passAtOnce
  induction order generalizing f v with
  | nil => exact h
  | cons c order ih =>
    have hprobed : Lands x b p (probeContact 0 f c) (v.probe c).1 [] (v.probe c).2 .inline :=
      Rests.probe ⟨h, fun _ => rfl⟩ hv (horder.1 c List.mem_cons_self)
    exact ih hprobed ((hv.stays Solo.stays_probe).stays Solo.stays_settle)
      (horder.rest.settle fun m hm => Solo.fault_of_mem_probe hm)

theorem Shows.pass_worker (h : Shows x b p .worker (!waiting.isEmpty) f v waiting)
    (hv : v.Registered) (horder : Ordered v order) :
    Shows x b p .worker (!(v.pass waiting order).2.isEmpty) (f.pass 0 order)
      (v.pass waiting order).1 (v.pass waiting order).2 := by
  unfold Fabric.pass
  induction order generalizing f v waiting with
  | nil => exact h
  | cons c order ih =>
    have hprobed : Lands x b p (probeContact 0 f c) (v.probe c).1 waiting (v.probe c).2 .worker :=
      Rests.probe ⟨h, nofun⟩ hv (horder.1 c List.mem_cons_self)
    exact ih hprobed (hv.stays Solo.stays_probe) horder.rest

/-! ## The worker -/

/-- The worker delivers the oldest message. -/
theorem Shows.work (h : Shows x b p .worker false f v (m :: waiting)) (hv : v.Registered) :
    Shows x b p .worker (!waiting.isEmpty) (f.work 0) (v.deliver m) waiting := by
  have htake : (f.engine 0).fanout.take? =
      some (m, v.engine.fanout.audience, (v.engine.inMode .worker waiting).fanout) := by
    rw [h.engine]
    rfl
  have hset : f.setFanout 0 (v.engine.inMode .worker waiting).fanout =
      f.setEngine 0 (v.engine.inMode .worker waiting) := by
    rw [setFanout, h.engine]
    rfl
  have hdelivered : Shows x b p .worker false (deliver receive
      (f.setEngine 0 (v.engine.inMode .worker waiting)) m v.engine.fanout.audience) (v.deliver m)
      waiting :=
    (h.setEngine v.engine waiting rfl rfl rfl rfl).foldl_call hv v.engine.fanout.audience
  simp only [Fabric.work, htake, hset, hdelivered.engine]
  cases waiting with
  | nil => exact hdelivered
  | cons n waiting =>
    have hqueue : ((v.deliver m).engine.inMode .worker (n :: waiting)).fanout.queue.isEmpty =
        false := rfl
    rw [hqueue, if_neg Bool.false_ne_true]
    exact { hdelivered with
      lobby := (lobbyAt_worker _ _ _).trans hdelivered.lobby
      nodup := List.nodup_cons.2 ⟨by simpa using hdelivered.worker, hdelivered.nodup⟩
      worker := by simp }

end Fabric

end Overlay
