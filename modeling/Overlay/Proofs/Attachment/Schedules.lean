import Overlay.Proofs.Attachment.Agreement

/-!
# Schedules as runs

What a command does is a run, and tasks stand aloof. So what a schedule does is a run in which each
call under way is that of a thread, which waits for a join (`Scene.Attended`). When all threads are
over, no call is under way: the fabric is at rest, and whatever was proved of scenes at rest holds
of what was played.
-/

namespace Overlay

/-- Where the call has got to for which a thread waits. -/
def Stage.ofJoin : Option Join → Stage
  | some j => .waiting j.agent j.engine
  | none => .over

theorem Progress.stage_eq (p : Progress) : p.stage = .ofJoin p.join? := by
  rcases p with outcome | pause
  · rfl
  · cases pause <;> rfl

/-! ## Calls of threads -/

namespace Scene

variable {s s' : Scene} {call : ThreadId → Nat} {stage : ThreadId → Stage} {x : Stage}
  {t : ThreadId}

/-- Each call under way is the call of one thread, and has got to where the thread says. -/
structure Attended (s : Scene) (call : ThreadId → Nat) (stage : ThreadId → Stage) : Prop where
  attends : ∀ {t}, stage t ≠ .over → s.call (call t) = stage t
  attended : ∀ {k}, s.call k ≠ .over → ∃ t, stage t ≠ .over ∧ call t = k
  apart : ∀ {t u}, stage t ≠ .over → stage u ≠ .over → call t = call u → t = u

namespace Attended

/-- A thread makes a new call. -/
theorem enter (h : s.Attended call stage) (ht : stage t = .over)
    (hcall : ∀ k, s'.call k = if k = s.calls.length then x else s.call k) :
    s'.Attended (fun u => if u = t then s.calls.length else call u)
      (fun u => if u = t then x else stage u) := by
  -- The calls of other threads that are under way have other numbers.
  have hothers : ∀ {u}, stage u ≠ .over → u ≠ t ∧ call u ≠ s.calls.length := by
    intro u hu
    refine ⟨fun hut => hu (hut ▸ ht), fun hlast => hu ?_⟩
    rw [← h.attends hu, hlast, call_length]
  constructor
  case attends =>
    intro u hu
    by_cases hut : u = t
    · simp [hut, hcall]
    · simp only [hut, if_false] at hu ⊢
      rw [hcall, if_neg (hothers hu).2, h.attends hu]
  case attended =>
    intro k hk
    rw [hcall] at hk
    split at hk
    · next hlast => exact ⟨t, by simpa using hk, by simp [hlast]⟩
    · obtain ⟨u, hu, rfl⟩ := h.attended hk
      exact ⟨u, by simpa [(hothers hu).1] using hu, by simp [(hothers hu).1]⟩
  case apart =>
    intro u v hu hv huv
    by_cases hut : u = t <;> by_cases hvt : v = t
    · rw [hut, hvt]
    · simp only [hut, hvt, if_true, if_false] at hv huv
      exact absurd huv.symm (hothers hv).2
    · simp only [hut, hvt, if_true, if_false] at hu huv
      exact absurd huv (hothers hu).2
    · simp only [hut, hvt, if_false] at hu hv huv
      exact h.apart hu hv huv

/-- The call of a thread gets on. -/
theorem proceed (h : s.Attended call stage) (ht : stage t ≠ .over)
    (hcall : ∀ k, s'.call k = if k = call t then x else s.call k) :
    s'.Attended call (fun u => if u = t then x else stage u) := by
  -- The new stages are of calls that were under way before.
  have hbefore : ∀ {u}, (if u = t then x else stage u) ≠ .over → stage u ≠ .over := by
    intro u hu
    by_cases hut : u = t
    · rwa [hut]
    · rwa [if_neg hut] at hu
  constructor
  case attends =>
    intro u hu
    by_cases hut : u = t
    · simp [hut, hcall]
    · have hu := hbefore hu
      rw [if_neg hut, hcall, if_neg fun hk => hut (h.apart hu ht hk), h.attends hu]
  case attended =>
    intro k hk
    rw [hcall] at hk
    split at hk
    · next ht => exact ⟨t, by simpa using hk, ht.symm⟩
    · next hne =>
      obtain ⟨u, hu, rfl⟩ := h.attended hk
      have hut : u ≠ t := fun hut => hne (congrArg call hut)
      exact ⟨u, by rwa [if_neg hut], rfl⟩
  case apart => exact fun hu hv huv => h.apart (hbefore hu) (hbefore hv) huv

end Attended

theorem length_step {turn : Turn} (hstep : Step s turn s') :
    s'.fabric.members.length = s.fabric.members.length ∧
      s'.fabric.engines.length = s.fabric.engines.length := by
  have hmembers : ∀ {f : Fabric} {a : AgentId} {y : Standing},
      (f.setStanding a y).members.length = f.members.length := List.length_modify _ _ _
  cases hstep with
  | begin => exact ⟨hmembers, rfl⟩
  | register => exact ⟨rfl, Fabric.length_setEngine _⟩
  | refuse => exact ⟨rfl, rfl⟩
  | reset => exact ⟨hmembers, rfl⟩
  | subscribe => exact ⟨rfl, Fabric.length_setEngine _⟩
  | settle => exact ⟨hmembers, rfl⟩
  | drop => exact ⟨hmembers, rfl⟩
  | abandon => exact ⟨rfl, Fabric.length_setEngine _⟩
  | leave => exact ⟨hmembers, rfl⟩
  | unsubscribe => exact ⟨rfl, Fabric.length_setEngine _⟩
  | unregister => exact ⟨rfl, Fabric.length_setEngine _⟩
  | shutdown => exact ⟨congrArg List.length Fabric.members_shutdown, Fabric.length_shutdown⟩
  | other haloof => exact ⟨haloof.members, haloof.engines⟩

theorem length_run {ts : List Turn} (hrun : Run s ts s') :
    s'.fabric.members.length = s.fabric.members.length ∧
      s'.fabric.engines.length = s.fabric.engines.length := by
  induction hrun with
  | nil => exact ⟨rfl, rfl⟩
  | cons _ hstep ih =>
    have hlast := length_step hstep
    exact ⟨hlast.1.trans ih.1, hlast.2.trans ih.2⟩

end Scene

namespace Fabric

variable {D : EngineId → Prop} {f g h : Fabric} {stage : ThreadId → Stage} {t : ThreadId}

/-- A command that is about what exists, and shuts down only certain engines. -/
def Feasible (f : Fabric) (D : EngineId → Prop) (c : Command) : Prop :=
  f.Admits c ∧ ∀ e, c = .shutdown e → D e

/-- A run leads from one fabric to another, and the calls under way are those of threads. -/
def Becomes (D : EngineId → Prop) (f g : Fabric) (stage : ThreadId → Stage) : Prop :=
  ∃ calls call, Scene.Leads D ⟨f, []⟩ ⟨g, calls⟩ ∧ (⟨g, calls⟩ : Scene).Attended call stage

namespace Becomes

theorem congr {stage' : ThreadId → Stage} (hg : f.Becomes D g stage)
    (hstage : ∀ u, stage' u = stage u) : f.Becomes D g stage' :=
  (funext hstage : stage' = stage) ▸ hg

theorem aloof (hg : f.Becomes D g stage) (hgh : g.Aloof h) : f.Becomes D h stage := by
  obtain ⟨calls, call, hleads, hattended⟩ := hg
  exact ⟨calls, call, hleads.trans (.aloof hgh),
    hattended.attends, hattended.attended, hattended.apart⟩

/-- A thread that waits for no join begins a command. -/
theorem start {c : Command} (hg : f.Becomes D g stage) (ht : stage t = .over)
    (hc : f.Feasible D c) :
    f.Becomes D (g.start t c).1 fun u => if u = t then (g.start t c).2.stage else stage u := by
  obtain ⟨calls, call, ⟨ts, hrun, hup⟩, hattended⟩ := hg
  have hlength := Scene.length_run hrun
  have hadmits : g.Admits c := by
    cases c with
    | join a e cutoff => exact ⟨hlength.1 ▸ hc.1.1, hlength.2 ▸ hc.1.2⟩
    | _ => trivial
  obtain ⟨⟨_, calls'⟩, hstart, rfl, hcall⟩ := Scene.leads_start calls (t := t) hadmits hc.2
  exact ⟨calls', _, .trans ⟨ts, hrun, hup⟩ hstart, hattended.enter ht hcall⟩

/-- A thread looks whether it can go on with a join. -/
theorem resume {j : Join} {start deadline : Nat} {cutoff : Option Nat} (hg : f.Becomes D g stage)
    (ht : stage t = .waiting j.agent j.engine) :
    f.Becomes D (g.resume t (.join j start deadline cutoff)).1 fun u =>
      if u = t then (g.resume t (.join j start deadline cutoff)).2.stage else stage u := by
  obtain ⟨calls, call, hleads, hattended⟩ := hg
  have hcall := (hattended.attends (by simp [ht])).trans ht
  refine ⟨_, call, hleads.trans (Scene.leads_resume hcall),
    hattended.proceed (by simp [ht]) fun k => ?_⟩
  exact Scene.call_move (s := ⟨g, calls⟩) (by simp [hcall])

/-- All that schedules do is a run. -/
theorem lasting :
    Lasting (fun g joins => f.Becomes D g fun t => .ofJoin (joins t)) (f.Feasible D) where
  idle := fun h hidle => h.aloof (.of_eq hidle.engines hidle.members)
  work := fun _ h => h.aloof .work
  tick := fun _ h => h.aloof .tick
  start := by
    intro g joins t c h ht hc
    refine (h.start (t := t) (by rw [ht]; rfl) hc).congr fun u => ?_
    rw [Function.update_apply]
    split
    · rw [Progress.stage_eq]
    · rfl
  resume := by
    intro g joins t j start deadline cutoff h ht
    refine (h.resume (t := t) (by rw [ht]; rfl)).congr fun u => ?_
    rw [Function.update_apply]
    split
    · rw [Progress.stage_eq]
    · rfl

end Becomes

/-! ## What is played -/

variable {plan : Plan} {patience : Nat} {ending : Ending}

/-- **Whatever is played to its end is a run to a scene at rest.** -/
theorem leads_play? (hplan : plan.All (f.Feasible D))
    (hplay : f.play? patience plan = some (g, ending)) :
    ∃ calls, Scene.Leads D ⟨f, []⟩ ⟨g, calls⟩ ∧ (⟨g, calls⟩ : Scene).AtRest := by
  have hbegin : f.Becomes D f fun _ => .over :=
    ⟨[], fun _ => 0, .refl _, fun ht => absurd rfl ht, fun hk => absurd rfl hk,
      fun ht => absurd rfl ht⟩
  obtain ⟨calls, call, hleads, hattended⟩ := Becomes.lasting.play? hbegin hplan hplay
  refine ⟨calls, hleads, fun k => Decidable.byContradiction fun hk => ?_⟩
  obtain ⟨t, ht, -⟩ := hattended.attended hk
  exact ht rfl

/-- **What was played leaves nobody half attached.** With an engine that was not shut down those
agents are registered that are attached to it, each under its own identity, and the responders there
are theirs. -/
theorem registered_iff_of_play? {c : EngineId} (hf : f.Vacant) (hplan : plan.All (f.Feasible D))
    (hplay : f.play? patience plan = some (g, ending)) (hc : ¬D c) :
    (∀ i a, (g.engine c).directory.local? i = some a ↔
      (g.member a).agent.identity = i ∧ ∃ r, (g.member a).standing = .joined c r) ∧
    ∀ r a, (r, a) ∈ (g.engine c).fanout.responders ↔ (g.member a).standing = .joined c r := by
  obtain ⟨calls, ⟨ts, hrun, hup⟩, hrest⟩ := leads_play? hplan hplay
  have htidy := (Scene.tidy_of_vacant hf c).run (Scene.orderly_of_vacant hf) hrun
    fun hshutdown => hc (hup c hshutdown)
  exact ⟨fun i a => hrest.registered_iff htidy, fun r a => hrest.responder_iff htidy⟩

end Fabric

end Overlay
