import Overlay.Proofs.Mesh.Routing

/-!
# Who outlasts a pass

A pass keeps whoever is attached to another engine, however long that agent has been silent: it is
asked, it answers, and its silence is over before the pass looks again. Only an engine whose timeout
times the retries comes to nothing does not wait for that. There is one with any number of retries
above zero, since one word is kept of the timeout in milliseconds: `2 ^ 64` of them are none.

So the passes of an engine keep those who are attached, in every run, just if it has retries and its
timeout in whole milliseconds is no multiple of `2 ^ 64` (`attached_outlast_passes_iff`).
-/

namespace Overlay

namespace Settings

variable {s : Settings}

/-- When an engine does not give up whoever it has just heard of. -/
theorem evictionMillis_pos_iff : 0 < s.evictionMillis ↔
    s.agentRetries ≠ 0 ∧ ¬0x10000000000000000 ∣ s.agentTimeout.millis := by
  have hretries : s.agentRetries.toNat = 0 ↔ s.agentRetries = 0 := UInt32.toNat_inj (b := 0)
  have hmax : 0 < maxMillis := by decide
  have hproduct : s.agentTimeoutMillis * s.agentRetries.toNat = 0 ↔
      s.agentRetries = 0 ∨ 0x10000000000000000 ∣ s.agentTimeout.millis := by
    rw [Nat.mul_eq_zero, hretries, agentTimeoutMillis, ← Nat.dvd_iff_mod_eq_zero, or_comm]
  rw [evictionMillis, ← not_or, ← hproduct]
  omega

end Settings

namespace Fabric

variable {f v w : Fabric} {u : Uuid} {b : BusId} {c d e : EngineId} {a : AgentId} {i : Identity}
  {s : Slot} {deeds : List Deed} {order : List (Identity × Slot)} {settings : Settings}

/-- A pass of an engine gives up nobody who is attached. Nobody loses the contact with such an agent,
no fault that is noted is about one, and all that the pass does about one is to ask it if it is
quiet. -/
structure Merciful (f : Fabric) (e : EngineId) (order : List (Identity × Slot)) : Prop where
  known : ∀ {d i s}, f.attached i = true → (f.engine d).directory.remote? i = some s →
    ((f.pass e order).engine d).directory.remote? i = some s
  reports : f.Reports (fun m => ∃ i, m.payload = .fault i ∧ f.attached i = false) (f.pass e order)
  asks : f.pass e order = f.passOver e order

/-- A pass of an engine that waits at all is merciful. -/
theorem merciful_of_pos (hf : f.Founded u b) (hds : f.Permits deeds)
    (hpos : 0 < (f.engine e).settings.evictionMillis)
    (horder : order.Perm ((f.follow deeds).engine e).directory.remotes.toList) :
    (f.follow deeds).Merciful e order := by
  have hrun := onward_follow hf.mesh hf.settled hds
  have hwaits : 0 < ((f.follow deeds).engine e).settings.evictionMillis := by
    rw [hrun.evictionMillis]
    exact hpos
  have hpass := passes_over_pass hrun.mesh (fun c hc => mem_of_perm_remotes horder hc) hwaits
  refine ⟨hpass.2.known, ?_, hpass.1⟩
  rw [hpass.1]
  exact reports_passOver

/-! ## An engine that does not wait -/

/-- Whoever is given up is gone, and the recorders of the engine note the fault. -/
theorem gone_evictFrom (h : f.Mesh u b) (hi : f.Lists e i) (hlost : (f.engine e).isLost s = true) :
    ((f.evictFrom e i s).engine e).directory.remote? i = none ∧
      ∃ uuid, ∀ name, .recorder name ∈ (f.engine e).fanout.audience →
        (name, .fault uuid (f.engine e).identity i) ∈ (f.evictFrom e i s).heard := by
  obtain ⟨g, hg⟩ : ∃ g, g = f.setDirectory e ((f.engine e).directory.removeRemote i) := ⟨_, rfl⟩
  have hlisted : (f.engine e).directory.isRemote i = true := hi
  have heq : f.evictFrom e i s = g.fresh.2.dispatch e (.fault g.fresh.1 (f.engine e).identity i) := by
    simp only [evictFrom, Engine.evicted?, hlost, hlisted, Bool.and_true, if_true, hg]
    rfl
  have hengine : g.fresh.2.engine e = { f.engine e with
      directory := (f.engine e).directory.removeRemote i } := hg ▸ engine_setEngine_self _ hi.lt
  have hmesh : g.fresh.2.Mesh u b :=
    (hg ▸ h.departs (departs_removeRemote (i := i) (e := e) h)).flows flows_fresh
  -- The contact is gone before the fault is handed to the listeners, and they bring nobody back.
  have hnoted := noted_dispatch hmesh (e := e)
    (m := .fault g.fresh.1 (f.engine e).identity i) (.inr (.inr (.inl rfl)))
  rw [heq]
  refine ⟨?_, g.fresh.1, fun name hname => ?_⟩
  · rw [Directory.remote?, hnoted.remotes, ← Directory.remote?, hengine]
    exact Directory.remote?_removeRemote.trans (if_pos rfl)
  · rw [hnoted.heard, List.mem_append, List.mem_reverse, Engine.notes, hengine]
    exact .inl (List.mem_filterMap.2 ⟨.recorder name, hname, rfl⟩)

/-- A quiet contact of an engine that does not wait is given up, answer or not. -/
theorem gone_probeContact (h : f.Mesh u b) (hi : f.Lists e i)
    (hquiet : (f.engine e).isQuiet s = true) (hzero : (f.engine e).settings.evictionMillis = 0) :
    ((probeContact e f (i, s)).engine e).directory.remote? i = none ∧
      ∃ uuid, ∀ name, .recorder name ∈ (f.engine e).fanout.audience →
        (name, .fault uuid (f.engine e).identity i) ∈ (probeContact e f (i, s)).heard := by
  have hflows : f.Flows (f.pingFrom e i) := flows_pingFrom h
  have hlost : ((f.pingFrom e i).engine e).isLost s = true := by
    simp [Engine.isLost, hflows.evictionMillis, hzero]
  have hgone := gone_evictFrom (h.flows hflows) (hflows.listed hi) hlost
  have hidentity : ((f.pingFrom e i).engine e).identity = (f.engine e).identity :=
    congrArg Fixture.identity (hflows.fixture e)
  rw [hidentity, hflows.fanout] at hgone
  rwa [probeContact, if_pos hquiet]

/-- An agent joins, whatever confirms that and however long it has to wait. -/
theorem exists_welcomes (hf : f.Founded u b) (ha : a < f.members.length)
    (hd : d < f.engines.length) :
    ∃ deeds, f.Permits deeds ∧ Welcomes u b a d f (f.follow deeds) := by
  have hallowed : f.Allows (.act 0 (.join a d none)) :=
    ⟨ha, hd, .inl rfl, fun _ k c hk => absurd hk (by simp [hf.detached, Standing.engine?])⟩
  obtain ⟨g, hg⟩ := enroll_ok (hf.detached a) hf.not_hosts
  rcases startJoin_of_enroll (t := 0) hf.mesh ha hd (fun c hc => absurd hc hf.not_hosts) hg
    (.inl rfl) with hw | ⟨-, hw⟩
  · exact ⟨[.act 0 (.join a d none)], ⟨hallowed, trivial⟩, hw.1⟩
  · -- The join waits, and its time is up at once.
    have hlook : (f.startJoin 0 a d none).1.Allows (.look 0 ⟨a, d, 0⟩ 0 0) := hw.joining
    refine ⟨[.act 0 (.join a d none), .look 0 ⟨a, d, 0⟩ 0 0], ⟨hallowed, hlook, trivial⟩, ?_⟩
    rcases attaches_resume (t := 0) (j := ⟨a, d, 0⟩) hw.mesh 0 0 hw.joining with ⟨-, hlt⟩ | hattached
    · exact absurd hlt (Nat.not_lt_zero _)
    · exact hw.welcomes hattached

/-- After the first join nobody but the agent that has joined is listed anywhere. -/
theorem Welcomes.remotes_eq (hw : Welcomes u b a d f w) (hf : f.Founded u b)
    (hs : (w.engine e).directory.remote? (f.member a).agent.identity = some s) :
    (w.engine e).directory.remotes.toList = [((f.member a).agent.identity, s)] := by
  have hall : ∀ c ∈ (w.engine e).directory.remotes.toList,
      c = ((f.member a).agent.identity, s) := by
    rintro ⟨j, r⟩ hc
    have hr : (w.engine e).directory.remote? j = some r := Register.mem_toList.1 hc
    obtain ⟨c, -, hhost⟩ := hw.mesh.elsewhere (lists_iff.2 ⟨r, hr⟩)
    rcases hw.hosts.1 hhost with hhost | ⟨-, rfl⟩
    · exact absurd hhost hf.not_hosts
    · rw [Option.some.inj (hr.symm.trans hs)]
  have hnodup := (w.engine e).directory.remotes.nodup.of_map
  have hmem : ((f.member a).agent.identity, s) ∈ (w.engine e).directory.remotes.toList :=
    Register.mem_toList.2 hs
  generalize (w.engine e).directory.remotes.toList = cs at hall hnodup hmem
  cases cs with
  | nil => exact absurd hmem List.not_mem_nil
  | cons c cs =>
    obtain rfl := hall c List.mem_cons_self
    cases cs with
    | nil => rfl
    | cons c cs =>
      obtain rfl := hall c (List.mem_cons_of_mem _ List.mem_cons_self)
      simp at hnodup

/-! ## What every pass comes to -/

theorem attached_setClock (now : Nat) : (f.setClock e now).attached i = f.attached i := rfl

theorem attached_listen (name : String) : (f.listen e name).attached i = f.attached i := rfl

theorem Welcomes.attached (hw : Welcomes u b a d f w) :
    w.attached (f.member a).agent.identity = true := by
  obtain ⟨t, ht⟩ := hw.joined
  exact attached_iff.2 ⟨a, d, t, ht, by rw [hw.agent]⟩

/-- An agent that is attached is gone from an engine that does not wait, after a pass that finds it
quiet. -/
theorem not_merciful (h : f.Mesh u b) (hi : f.attached i = true)
    (hs : (f.engine e).directory.remote? i = some s) (hquiet : (f.engine e).isQuiet s = true)
    (hzero : (f.engine e).settings.evictionMillis = 0) : ¬f.Merciful e [(i, s)] := by
  intro hmerciful
  have hgone := (gone_probeContact h (lists_iff.2 ⟨s, hs⟩) hquiet hzero).1
  have hkept := hmerciful.known hi hs
  rw [pass, List.foldl_cons, List.foldl_nil, hgone] at hkept
  contradiction

/-- **A pass keeps whoever is attached**, after every run and whatever the clocks show, just if its
engine has retries and its timeout in whole milliseconds is no multiple of `2 ^ 64`. -/
theorem attached_outlast_passes_iff (hf : f.Founded u b) (ha : a < f.members.length)
    (hd : d < f.engines.length) (he : e < f.engines.length) (hne : d ≠ e) :
    (∀ deeds order, f.Permits deeds →
      order.Perm ((f.follow deeds).engine e).directory.remotes.toList →
      (f.follow deeds).Merciful e order) ↔
    (f.engine e).settings.agentRetries ≠ 0 ∧
      ¬0x10000000000000000 ∣ (f.engine e).settings.agentTimeout.millis := by
  rw [← Settings.evictionMillis_pos_iff]
  constructor
  · intro hmerciful
    by_contra hpos
    obtain ⟨deeds, hds, hw⟩ := exists_welcomes hf ha hd
    obtain ⟨s, hs⟩ := lists_iff.1 (hw.listed he hne)
    have hremotes := hw.remotes_eq hf hs
    -- The agent has joined the other engine, and the clock is set to when it counts as quiet.
    let now := ((f.follow deeds).engine e).settings.agentTimeoutMillis +
      (((f.follow deeds).engine e).directory.contact s).lastSeen
    have hclock : f.follow (deeds ++ [.act 0 (.setClock e now)]) = (f.follow deeds).setClock e now :=
      follow_append
    have hpermits : f.Permits (deeds ++ [.act 0 (.setClock e now)]) :=
      permits_append.2 ⟨hds, trivial, trivial⟩
    have hrun := onward_follow hf.mesh hf.settled hpermits
    have hengine : ((f.follow deeds).setClock e now).engine e =
        { (f.follow deeds).engine e with clock := now } :=
      engine_setEngine_self _ (hw.length ▸ he)
    have hkept := hmerciful _ [((f.member a).agent.identity, s)] hpermits
      (by rw [hclock, hengine, hremotes])
    rw [hclock] at hrun hkept
    refine not_merciful hrun.mesh ((attached_setClock now).trans hw.attached) (by rw [hengine, hs])
      ?_ ?_ hkept
    · simp [hengine, Engine.isQuiet, Engine.idle, now]
    · rw [hrun.evictionMillis]
      exact Nat.eq_zero_of_not_pos hpos
  · intro hpos deeds order hds horder
    exact merciful_of_pos hf hds hpos horder

theorem attached_outlast_passes_pair : (pair.follow arrival).Merciful 1
    ((pair.follow arrival).engine 1).directory.remotes.toList :=
  (attached_outlast_passes_iff (d := 0) (a := 0) founded_pair (by decide) (by decide) (by decide)
    (by decide)).2 ⟨by decide, by decide⟩ arrival _ (permits_arrival rfl) (.refl _)

/-- The first agent that joins is given up by the next pass of an engine without a timeout. -/
theorem Welcomes.gone_probe (hw : Welcomes u b a d f w) (hf : f.Founded u b) (hv : w.Alike v)
    (hmesh : v.Mesh u b) (he : e < f.engines.length) (hne : d ≠ e)
    (hzero : (f.engine e).settings.agentTimeoutMillis = 0) :
    v.Lists e (f.member a).agent.identity ∧ ¬(v.probe e).Lists e (f.member a).agent.identity ∧
      ∃ uuid, ∀ name, .recorder name ∈ (v.engine e).fanout.audience →
        (name, .fault uuid (.cloud u) (f.member a).agent.identity) ∈ (v.probe e).heard := by
  have hlists : v.Lists e (f.member a).agent.identity := hv.lists.2 (hw.listed he hne)
  obtain ⟨s, hs⟩ := lists_iff.1 hlists
  have hprobe : v.probe e = probeContact e v ((f.member a).agent.identity, s) := by
    rw [probe, hv.directory, hw.remotes_eq hf (hv.directory e ▸ hs), List.foldl_cons,
      List.foldl_nil]
  have hsettings : (v.engine e).settings = (f.engine e).settings :=
    congrArg Fixture.settings ((hw.toStill.trans hv.toStill).fixture e)
  have hgone := gone_probeContact hmesh hlists (s := s)
    (by simp [Engine.isQuiet, hsettings, hzero]) (by simp [Settings.evictionMillis, hsettings, hzero])
  rw [← hprobe, (hmesh.wired hlists.lt).identity] at hgone
  refine ⟨hlists, ?_, hgone.2⟩
  simp [lists_iff, hgone.1]

def endless : Settings :=
  ⟨⟨0x10000000000000000 * 1000000, by decide⟩, 3, .ofMillis 200, .inline⟩

/-- **With a timeout of `2 ^ 64` milliseconds an agent that is attached is given up** by the first pass
after it has joined, and the recorders note the fault. -/
theorem not_attached_outlast_passes :
    1000000 ≤ endless.agentTimeout.nanos ∧ endless.agentRetries = 3 ∧
    (pairOf endless).Founded default 0 ∧ (pairOf endless).Permits watched ∧
    ((pairOf endless).follow watched).attached (.agent default) = true ∧
    ((pairOf endless).follow watched).Lists 1 (.agent default) ∧
    ¬(((pairOf endless).follow watched).probe 1).Lists 1 (.agent default) ∧
    ∃ uuid, ("log", .fault uuid (.cloud default) (.agent default)) ∈
      (((pairOf endless).follow watched).probe 1).heard := by
  have hf : (pairOf endless).Founded default 0 := founded_pairOf rfl
  have hpermits : (pairOf endless).Permits watched := permits_watched rfl
  have hmesh := (onward_follow hf.mesh hf.settled hpermits).mesh
  have hw : Welcomes default 0 0 0 (pairOf endless) ((pairOf endless).follow arrival) :=
    joined_arrival rfl
  have hlt : 1 < ((pairOf endless).follow arrival).engines.length := by
    rw [hw.length]
    decide
  have hlisten := @alike_listen ((pairOf endless).follow arrival) 1 "log"
  have haudience := @mem_audience_listen ((pairOf endless).follow arrival) 1 "log" hlt
  have hattached := @attached_listen ((pairOf endless).follow arrival) 1 (.agent default) "log"
  rw [← follow_watched] at hlisten haudience hattached
  obtain ⟨hlists, hgone, uuid, hheard⟩ := hw.gone_probe hf hlisten hmesh (e := 1) (by decide)
    (by decide) (by decide)
  exact ⟨by decide, rfl, hf, hpermits, hattached.trans hw.attached, hlists, hgone, uuid,
    hheard "log" haudience⟩

end Fabric

end Overlay
