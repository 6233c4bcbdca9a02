import Overlay.Proofs.Attachment.Agreement

/-!
# Agents of one identity

Two agents may have one identity, and only one of them can be registered with an engine. A join that
is dropped removes the registration of its own agent only; the end of a leave removes whatever is
registered under the identity. While an engine is not shut down that comes to the same, because an
agent that leaves is the one that is registered. A shutdown, though, forgets who is registered and
leaves those agents attached. Another one of the identity can join the engine then, and loses its
registration when the first one leaves.
-/

namespace Overlay

namespace Scene

variable {s s' : Scene} {a b : AgentId} {c e : EngineId} {i : Identity} {x : Act} {ts : List Turn}
  {f : Fabric}

/-- A registration after a turn of another agent's call. -/
theorem local?_act (hstep : Step s (.act x b e) s') (hlocal : s.local? c i = some a) (hne : b ≠ a) :
    s'.local? c i =
      if x = .unregister ∧ e = c ∧ s.identity b = i then none else some a := by
  have hlt : c < s.fabric.engines.length := Fabric.lt_of_local? hlocal
  -- A call that gets on with another directory, in which the registration is the same.
  have hdirectory : ∀ {k stage D}, (c = e → D.local? i = some a) →
      (s.move k stage (s.fabric.setDirectory e D)).local? c i = some a := by
    intro k stage D hD
    by_cases hc : c = e
    · subst hc
      rw [local?_setDirectory hlt, hD rfl]
    · rw [local?, move, Fabric.setDirectory, Fabric.engine_setEngine_ne _ hc]
      exact hlocal
  cases hstep with
  | register hcall hinsert =>
    rw [if_neg (by simp)]
    refine hdirectory fun hc => ?_
    subst hc
    obtain ⟨hfree, hD⟩ := Directory.insertLocal?_eq_some hinsert
    have hi : i ≠ s.identity b := by
      rintro rfl
      rw [show s.local? c (s.identity b) = none from hfree] at hlocal
      contradiction
    rw [hD, Directory.local?, Register.get?_enter, if_neg hi]
    exact hlocal
  | subscribe => simpa [local?_setFanout] using hlocal
  | abandon hcall =>
    rw [if_neg (by simp)]
    refine hdirectory fun hc => ?_
    subst hc
    rw [Directory.local?, Directory.removeLocalAgent, Register.get?_eraseIf, if_neg]
    · exact hlocal
    · rintro ⟨rfl, hb⟩
      rw [show s.local? c (s.identity b) = some b from hb] at hlocal
      exact hne (Option.some.inj hlocal)
  | unsubscribe => simpa [local?_setFanout] using hlocal
  | unregister hcall =>
    by_cases hb : e = c ∧ s.identity b = i
    · obtain ⟨rfl, rfl⟩ := hb
      rw [if_pos ⟨rfl, rfl, rfl⟩, Fabric.unregister, local?_setDirectory hlt,
        Directory.local?_removeLocal]
      exact if_pos rfl
    · rw [if_neg fun h => hb h.2]
      refine hdirectory fun hc => ?_
      rw [Directory.local?_removeLocal, if_neg fun hi => hb ⟨hc.symm, hi.symm⟩]
      subst hc
      exact hlocal
  | _ =>
    rw [if_neg (by simp)]
    exact hlocal

/-- The first of the twins has joined, and the engine is shut down. The second one joins then. -/
def secondJoined : Fabric :=
  match (firstJoined.shutdown 0).enroll 1 0 with
  | .ok f => f.attach 1 0
  | .error _ => firstJoined

/-- The first of the twins joins, the engine is shut down, the second one joins, and the first one
begins to leave. -/
def relay : List Turn :=
  [.act .unsubscribe 0 0, .act .leave 0 0] ++
    ([.act .settle 1 0, .act .subscribe 1 0, .act .register 1 0, .act .begin 1 0] ++
      (.shutdown 0 :: firstJoins))

theorem run_relay : ∃ s s', Run ⟨twins, []⟩ relay s ∧ Step s (.act .unregister 0 0) s' ∧
    s.identity 0 = .agent default ∧ s.local? 0 (.agent default) = some 1 ∧
    s'.local? 0 (.agent default) = none := by
  have hsecond : Run ⟨firstJoined.shutdown 0, [.over]⟩ _ ⟨secondJoined, [.over, .over]⟩ :=
    (run_enroll (by decide) (by decide) rfl).append (run_attach (k := 1) rfl)
  have hjoined := (run_firstJoins.cons (.shutdown 0)).append hsecond
  have hleave := (hjoined.cons (.leave (a := 0) rfl)).cons (.unsubscribe (k := 2) rfl)
  exact ⟨_, _, hleave, .unregister (k := 2) rfl, rfl, rfl, rfl⟩

/-- **When an agent loses its registration to another one.** Of all that calls of other agents do,
nothing touches the registration of an agent but the end of a leave, from the same engine and by an
agent of the same identity; and there is no such leave unless the engine has been shut down. -/
theorem loses_registration_iff (hf : f.Vacant) (hrun : Run ⟨f, []⟩ ts s)
    (hstep : Step s (.act x b e) s') (hlocal : s.local? c i = some a) (hne : b ≠ a) :
    (s'.local? c i ≠ some a ↔ x = .unregister ∧ e = c ∧ s.identity b = i) ∧
      (s'.local? c i ≠ some a → .shutdown c ∈ ts) := by
  have hafter := local?_act hstep hlocal hne
  have hloses : s'.local? c i ≠ some a ↔ x = .unregister ∧ e = c ∧ s.identity b = i := by
    rw [hafter]
    split
    · next h => simp [h]
    · next h => simp [h]
  refine ⟨hloses, fun hlost => ?_⟩
  obtain ⟨rfl, rfl, rfl⟩ := hloses.1 hlost
  refine Decidable.byContradiction fun hup => ?_
  have htidy := (tidy_of_vacant hf e).run (orderly_of_vacant hf) hrun hup
  cases hstep with
  | @unregister k b e hcall =>
    -- Who leaves keeps up a registration under the identity, and there is only one.
    have hleaver := htidy.local? (p := .call k) (r := none) (by rw [tie?_call, hcall]; rfl)
    rw [hlocal] at hleaver
    exact hne (Option.some.inj hleaver).symm

theorem loses_registration_iff_relay : ∃ s s', Run ⟨twins, []⟩ relay s ∧
    Step s (.act .unregister 0 0) s' ∧ s.local? 0 (.agent default) = some 1 ∧
    s'.local? 0 (.agent default) ≠ some 1 := by
  obtain ⟨s, s', hrun, hstep, hidentity, hlocal, -⟩ := run_relay
  have hloses := loses_registration_iff vacant_twins hrun hstep hlocal (by decide)
  exact ⟨s, s', hrun, hstep, hlocal, hloses.1.2 ⟨rfl, rfl, hidentity⟩⟩

/-- An agent may lose its registration to another one that leaves. -/
theorem not_undisturbed : ¬ ∀ (f : Fabric) (ts : List Turn) (s s' : Scene) (x : Act) (a b : AgentId)
    (c e : EngineId) (i : Identity), f.Vacant → Run ⟨f, []⟩ ts s → Step s (.act x b e) s' →
    b ≠ a → s.local? c i = some a → s'.local? c i = some a := by
  intro hundisturbed
  obtain ⟨s, s', hrun, hstep, -, hlocal, hlost⟩ := run_relay
  have hkept := hundisturbed twins relay s s' .unregister 1 0 0 0 (.agent default) vacant_twins hrun
    hstep (by decide) hlocal
  rw [hlost] at hkept
  contradiction

end Scene

end Overlay
