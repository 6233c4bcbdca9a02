import Overlay.Proofs.Confirmation.Joins
import Overlay.Proofs.Mesh.Leaving
import Overlay.Proofs.Schedules

/-!
# Commands and sessions

No command opens a session but a join, and a thread that has opened one releases it before it goes
on to anything else. Everything else leaves sessions alone. So whatever schedules do is a run of a
hall, in which the joins under way are those for which threads wait (`Hall.Enacts`), and nothing is
left of any session when a plan has been played to its end.
-/

namespace Overlay

namespace Fabric

variable {f g : Fabric} {a : AgentId} {e : EngineId}

/-! ## What leaves sessions alone -/

namespace Spares

theorem setFanout (F : Fanout Hearer) : f.Spares (f.setFanout e F) := setEngine rfl

theorem announceArrival : f.Spares (f.announceArrival a e) := (aside aside_fresh).trans (send _ _)

theorem askAround : f.Spares (f.askAround a e) := (aside aside_fresh).trans (send _ _)

theorem announceDeparture : f.Spares (f.announceDeparture a e) :=
  (aside aside_fresh).trans (send _ _)

theorem attach : f.Spares (f.attach a e) := (setFanout _).trans (setStanding _)

theorem leave (hg : f.leave a = .ok g) : f.Spares g := by
  obtain ⟨v, e, hv, rfl⟩ := leave_eq_ok hg
  obtain ⟨r, -, rfl⟩ := detach_eq_ok hv
  exact ((setStanding _).trans (setFanout _)).trans (announceDeparture.trans (setDirectory _))

theorem stopTasks : f.Spares (f.stopTasks e) := by
  have hengine : f.Spares (f.setEngine e
      { f.engine e with nextPass := none, fanout := (f.engine e).fanout.stop }) := setEngine rfl
  exact hengine.trans (.of_eq rfl rfl)

theorem closeGateway (x : GatewayId) : f.Spares (f.closeGateway x).1 := by
  unfold Fabric.closeGateway
  split <;> exact .of_eq rfl rfl

theorem shutdown : f.Spares (f.shutdown e) := by
  have hclose : ∀ (xs : List GatewayId) (g : Fabric),
      g.Spares (xs.foldl (fun g x => (g.closeGateway x).1) g) := by
    intro xs
    induction xs with
    | nil => exact refl
    | cons x xs ih => exact fun g => (closeGateway x).trans (ih _)
  exact stopTasks.trans ((hclose _ _).trans (setDirectory _))

theorem evictFrom (contact : Identity) (s : Slot) : f.Spares (f.evictFrom e contact s) := by
  unfold Fabric.evictFrom
  cases hx : (f.engine e).evicted? contact s with
  | none => exact refl f
  | some x =>
    have hgone : f.Spares (f.setEngine e x) := by
      unfold Engine.evicted? at hx
      split at hx
      · obtain rfl := Option.some.inj hx
        exact setEngine rfl
      · contradiction
    exact hgone.trans ((aside aside_fresh).trans (closed.dispatchBy receive trivial e))

theorem probe : f.Spares (f.probe e) := by
  unfold Fabric.probe
  induction (f.engine e).directory.remotes.toList generalizing f with
  | nil => exact refl f
  | cons contact contacts ih =>
    have hcontact : f.Spares (probeContact e f contact) := by
      unfold probeContact
      split
      · exact ((aside aside_fresh).trans (send _ _)).trans (evictFrom _ _)
      · exact refl f
    exact hcontact.trans ih

theorem schedulePass (due : Nat) : f.Spares (f.schedulePass e due) := by
  have hengine : f.Spares (f.setEngine e { f.engine e with nextPass := some due }) := setEngine rfl
  exact hengine.trans (.of_eq rfl rfl)

theorem tick : f.Spares (f.tick e) := by
  unfold Fabric.tick
  split
  · exact refl f
  · exact probe.trans (schedulePass _)

theorem work : f.Spares (f.work e) := by
  unfold Fabric.work
  split
  · exact refl f
  · next m audience fanout _ =>
    have hdeliver : f.Spares ((f.setFanout e fanout).deliver Fabric.receive m audience) :=
      (setFanout fanout).trans (closed.deliver receive trivial audience)
    simp only
    split
    · exact hdeliver
    · exact hdeliver.trans (.of_eq rfl rfl)

/-- Whatever is over at once. -/
theorem carryOut (c : Command) : f.Spares (f.carryOut c).1 := by
  cases c with
  | leave a =>
    simp only [Fabric.carryOut, settleWith]
    split
    · next hleave => exact leave hleave
    · exact refl f
  | sendFrom a m =>
    simp only [Fabric.carryOut, settleWith, sendFrom]
    split
    · next heq =>
      split at heq
      · cases heq
        exact send _ _
      · contradiction
    · exact refl f
  | send e m => exact send e m
  | registerEndpoint a endpoint => exact .of_eq rfl rfl
  | inject b m =>
    have h : f.Spares (f.inject b m).1 := inject b m
    simp only [Fabric.carryOut]
    split <;> next heq => rwa [heq] at h
  | process e m => exact process e m
  | setClock e now => exact setEngine rfl
  | probe e => exact probe
  | shutdown e => exact shutdown
  | drop e => exact stopTasks.trans (setEngine rfl)
  | listen e name => exact setFanout _
  | unlisten e name => exact setFanout _
  | setFailing x failing =>
    simp only [Fabric.carryOut, Fabric.setFailing]
    split <;> exact .of_eq rfl rfl
  | setAnswer x answer =>
    simp only [Fabric.carryOut, Fabric.setAnswer]
    split <;> exact .of_eq rfl rfl
  | close x => exact closeGateway x
  | contact e i => exact refl f
  | describe e => exact refl f
  | join a e cutoff => exact refl f
  | rest millis => exact refl f

end Spares

end Fabric

/-! ## Sessions of threads -/

namespace Hall

variable {h h' h'' : Hall} {marks more : List Mark} {mark : Mark}

theorem Run.trans (hrun : Run h marks h') (hmore : Run h' more h'') :
    Run h (marks ++ more) h'' := by
  induction hmore with
  | nil => simpa using hrun
  | snoc _ hstep ih => exact List.append_assoc .. ▸ ih.snoc hstep

theorem Step.engines_le (hstep : Step h mark h') :
    h.fabric.engines.length ≤ h'.fabric.engines.length := by
  cases hstep with
  | refuse => exact Nat.le_refl _
  | enroll _ henroll => exact (Fabric.Spares.enroll henroll).engines
  | openSession => exact Nat.le_refl _
  | wait => exact (Fabric.Spares.beginWait _ _).engines
  | release => exact Nat.le_refl _
  | other hspares => exact hspares.engines

theorem Run.engines_le (hrun : Run h marks h') :
    h.fabric.engines.length ≤ h'.fabric.engines.length := by
  induction hrun with
  | nil => exact Nat.le_refl _
  | snoc _ hstep ih => exact Nat.le_trans ih hstep.engines_le

/-- Each thread that waits for its join has an attempt of its own in a place, which holds the session
of the join, and all other attempts are over. -/
structure Serves (h : Hall) (joins : ThreadId → Option Join) (place : ThreadId → Nat) : Prop where
  waiting : ∀ {t j}, joins t = some j →
    h.attempts[place t]? = some ⟨j.agent, j.engine, .holding j.session⟩
  apart : ∀ {t u j k}, joins t = some j → joins u = some k → place t = place u → t = u
  rest : ∀ {n x}, h.attempts[n]? = some x → x.phase = .over ∨ ∃ t j, joins t = some j ∧ place t = n

/-- A run leads to a fabric, with threads that wait for their joins. -/
def Enacts (h : Hall) (f : Fabric) (joins : ThreadId → Option Join) : Prop :=
  ∃ marks h' place, Run h marks h' ∧ h'.fabric = f ∧ h'.Serves joins place

theorem enacts_refl (f : Fabric) : Enacts ⟨f, []⟩ f fun _ => none :=
  ⟨[], _, fun _ => 0, .nil, rfl, nofun, nofun, nofun⟩

namespace Enacts

open Function Fabric

variable {f g : Fabric} {a : AgentId} {e : EngineId} {b : BoardId} {j : Join} {t : ThreadId}
  {joins : ThreadId → Option Join}

theorem engines_le (hf : h.Enacts f joins) : h.fabric.engines.length ≤ f.engines.length := by
  obtain ⟨marks, h', place, hrun, rfl, -⟩ := hf
  exact hrun.engines_le

theorem spare (hf : h.Enacts f joins) (hspares : f.Spares g) : h.Enacts g joins := by
  obtain ⟨marks, h', place, hrun, rfl, hserves⟩ := hf
  exact ⟨_, _, place, hrun.snoc (.other hspares), rfl, hserves.waiting, hserves.apart, hserves.rest⟩

/-- A thread that waits for its join releases the session. -/
theorem releaseSession (hf : h.Enacts f joins) (ht : joins t = some j) :
    h.Enacts (f.releaseSession j t) (update joins t none) := by
  obtain ⟨marks, h', place, hrun, rfl, hserves⟩ := hf
  have hk := hserves.waiting ht
  have hlt : place t < h'.attempts.length := (List.getElem?_eq_some_iff.1 hk).1
  have hold : ∀ {u k}, update joins t none u = some k → u ≠ t ∧ joins u = some k := by
    intro u k hu
    have hut : u ≠ t := by
      rintro rfl
      simp at hu
    exact ⟨hut, by rwa [update_of_ne hut] at hu⟩
  refine ⟨_, _, place, hrun.snoc (.release hk t), rfl, ?_, ?_, ?_⟩
  · intro u k hu
    obtain ⟨hut, hu⟩ := hold hu
    have hne : place t ≠ place u := fun heq => hut (hserves.apart hu ht heq.symm)
    exact (List.getElem?_set_ne hne).trans (hserves.waiting hu)
  · intro u v k l hu hv
    exact hserves.apart (hold hu).2 (hold hv).2
  · intro n x hx
    by_cases hn : place t = n
    · rw [← hn, List.getElem?_set_self hlt] at hx
      exact .inl (Option.some.inj hx ▸ rfl)
    · rw [List.getElem?_set_ne hn] at hx
      rcases hserves.rest hx with hover | ⟨u, k, hu, rfl⟩
      · exact .inl hover
      · have hut : u ≠ t := by
          rintro rfl
          exact hn rfl
        exact .inr ⟨u, k, by rw [update_of_ne hut, hu], rfl⟩

/-- **The end of a join is a release**, with what goes with it. -/
theorem finishJoin (hf : h.Enacts f joins) (ht : joins t = some j) :
    h.Enacts (f.finishJoin j t) (update joins t none) :=
  (hf.releaseSession ht).spare .attach

/-- **So is it if a join is dropped.** -/
theorem dropJoin (hf : h.Enacts f joins) (ht : joins t = some j) :
    h.Enacts (f.dropJoin j t) (update joins t none) :=
  (hf.releaseSession ht).spare ((Spares.setStanding _).trans (.setDirectory _))

/-- **A thread that looks again** goes on waiting, or its join comes to one of these ends. -/
theorem resume (start deadline : Nat) (cutoff : Option Nat) (hf : h.Enacts f joins)
    (ht : joins t = some j) :
    h.Enacts (f.resume t (.join j start deadline cutoff)).1
      (update joins t (f.resume t (.join j start deadline cutoff)).2.join?) := by
  simp only [Fabric.resume]
  split
  · have hnoticed : h.Enacts { f with confirmed := f.confirmed.filter (· ≠ t) } joins :=
      hf.spare (.of_eq rfl rfl)
    exact hnoticed.finishJoin ht
  · split
    · exact hf.finishJoin ht
    · split
      · exact hf.dropJoin ht
      · exact (update_eq_self_iff.2 ht.symm : update joins t (some j) = joins).symm ▸ hf

/-- An agent is enrolled and gets a session, for which a thread has a new attempt. -/
theorem openSession (hf : h.Enacts f joins) (he : e < f.engines.length) (ht : joins t = none)
    (henroll : f.enroll a e = .ok g) :
    h.Enacts (g.openSession a e).1 (update joins t (some (g.openSession a e).2)) := by
  obtain ⟨marks, h', place, hrun, rfl, hserves⟩ := hf
  have hlast : (h'.attempts ++ [⟨a, e, .enrolled⟩])[h'.attempts.length]? =
      some ⟨a, e, .enrolled⟩ := List.getElem?_concat_length
  have hplace : ∀ {u k}, joins u = some k → place u < h'.attempts.length := fun hu =>
    (List.getElem?_eq_some_iff.1 (hserves.waiting hu)).1
  have hother : ∀ {u k}, joins u = some k → u ≠ t := by
    rintro u k hu rfl
    rw [ht] at hu
    contradiction
  refine ⟨_, _, update place t h'.attempts.length,
    (hrun.snoc (.enroll he henroll)).snoc (.openSession hlast), rfl, ?_, ?_, ?_⟩
  · intro u k hu
    by_cases hut : u = t
    · subst hut
      rw [update_self] at hu ⊢
      obtain rfl := Option.some.inj hu
      exact List.getElem?_set_self (by simp)
    · rw [update_of_ne hut] at hu ⊢
      have hlt := hplace hu
      rw [List.getElem?_set_ne (Nat.ne_of_gt hlt), List.getElem?_append_left hlt]
      exact hserves.waiting hu
  · intro u v k l hu hv heq
    by_cases hut : u = t <;> by_cases hvt : v = t
    · rw [hut, hvt]
    · rw [update_of_ne hvt] at hv heq
      rw [hut, update_self] at heq
      exact absurd heq.symm (Nat.ne_of_lt (hplace hv))
    · rw [update_of_ne hut] at hu heq
      rw [hvt, update_self] at heq
      exact absurd heq (Nat.ne_of_lt (hplace hu))
    · rw [update_of_ne hut] at hu heq
      rw [update_of_ne hvt] at hv heq
      exact hserves.apart hu hv heq
  · intro n x hx
    by_cases hn : h'.attempts.length = n
    · exact .inr ⟨t, _, update_self t _ joins, by rw [update_self, hn]⟩
    · rw [List.getElem?_set_ne hn] at hx
      have hlt : n < h'.attempts.length := by
        have hle := (List.getElem?_eq_some_iff.1 hx).1
        simp only [List.length_append, List.length_singleton] at hle
        omega
      rw [List.getElem?_append_left hlt] at hx
      rcases hserves.rest hx with hover | ⟨u, k, hu, rfl⟩
      · exact .inl hover
      · exact .inr ⟨u, k, by rw [update_of_ne (hother hu), hu], by rw [update_of_ne (hother hu)]⟩

/-- A join that is not refused is under way with its session. -/
theorem beginJoin (hf : h.Enacts f joins) (he : e < f.engines.length) (ht : joins t = none)
    (hbegin : f.beginJoin a e = .ok (g, j)) : h.Enacts g (update joins t (some j)) := by
  unfold Fabric.beginJoin at hbegin
  cases henroll : f.enroll a e with
  | error refusal =>
    rw [henroll] at hbegin
    contradiction
  | ok v =>
    rw [henroll] at hbegin
    obtain ⟨rfl, rfl⟩ := Prod.mk.inj (Except.ok.inj hbegin)
    exact (hf.openSession he ht henroll).spare (Spares.announceArrival.trans .askAround)

/-- **A join that a thread begins** is refused, or enrolled with a session; then it waits, or it has
come to its end. -/
theorem startJoin {cutoff : Option Nat} (hf : h.Enacts f joins) (he : e < f.engines.length)
    (ht : joins t = none) :
    h.Enacts (f.startJoin t a e cutoff).1
      (update joins t (f.startJoin t a e cutoff).2.join?) := by
  have hsame : update joins t none = joins := update_eq_self_iff.2 ht.symm
  unfold Fabric.startJoin
  split
  · exact hsame.symm ▸ hf
  · next g j hbegin =>
    have hwait := (hf.beginJoin he ht hbegin).spare (.beginWait j t)
    simp only
    split
    · have hend := hwait.finishJoin (update_self t _ joins)
      rwa [update_idem] at hend
    · have hnext := hwait.resume (g.beginWait j t).1.now
        (timerTime (g.beginWait j t).1.now
          ((g.beginWait j t).1.engine e).settings.joinTimeout.nanos)
        (cutoff.map ((g.beginWait j t).1.now + ·)) (update_self t _ joins)
      rwa [update_idem] at hnext

/-- All that schedules do is a run, in which the joins under way are those for which threads wait. -/
theorem lasting (f : Fabric) : Lasting (Enacts ⟨f, []⟩) f.Admits where
  idle := fun hg hidle => hg.spare (.of_eq hidle.boards hidle.engines)
  work := fun _ hg => hg.spare .work
  tick := fun _ hg => hg.spare .tick
  start := by
    intro g joins t c hg ht hc
    have hsame : update joins t none = joins := update_eq_self_iff.2 ht.symm
    have hother : Enacts ⟨f, []⟩ (g.carryOut c).1 (update joins t none) :=
      hsame.symm ▸ hg.spare (.carryOut c)
    cases c with
    | join a e cutoff => exact hg.startJoin (Nat.lt_of_lt_of_le hc.2 hg.engines_le) ht
    | rest millis =>
      simp only [Fabric.start, Fabric.resume]
      split <;> exact hsame.symm ▸ hg
    | _ => exact hother
  resume := Enacts.resume _ _ _

end Enacts

end Hall

/-- **Nothing is left of any session when a plan has been played to its end**, however its joins
were confirmed, refused, dropped or out of time. -/
theorem Fabric.pending_play? {f g : Fabric} {b : BoardId} {plan : Plan} {patience : Nat}
    {ending : Ending} (hb : b < f.boards.length) (hempty : (f.board b).2 = .empty)
    (hplan : plan.All f.Admits) (hplay : f.play? patience plan = some (g, ending)) :
    (g.board b).2.pending = 0 := by
  obtain ⟨marks, h, place, hrun, rfl, hserves⟩ :=
    (Hall.Enacts.lasting f).play? (Hall.enacts_refl f) hplan hplay
  refine (Hall.manned_run hb hempty hrun).2.pending_eq_zero ?_
  rintro e s - ⟨a, ha⟩
  obtain ⟨n, hn⟩ := List.mem_iff_getElem?.1 ha
  rcases hserves.rest hn with hover | ⟨t, j, ht, -⟩
  · contradiction
  · contradiction

end Overlay
