import Overlay.Proofs.Liveness.Unanswered

/-!
# What one pass does

The log of a pass that nobody answers, the engine after it and what its recorders have noted, all
told from how the engine was before (`pass_of_unanswered`). The contacts are looked at in some order,
and only the order of what happens depends on it.

Other engines may hear the pings. As long as no responder there speaks for somebody who is listed,
none is answered: they go to listeners, who may note them, and all that comes back to the engine is
the pings themselves (`Passes.ignores_of_deserted`). So it is where there are only recorders
(`deserted_of_recorders`), and where nobody else is (`Solitary.deserted`).
-/

namespace Overlay

namespace Engine

variable {x : Engine} {i : Identity} {fault : Identity → Uuid}
  {c : Identity × Slot} {order : List (Identity × Slot)} {gone : List Identity}

/-- What giving up some identities changes about an engine. -/
theorem withoutAll_eq : x.withoutAll fault gone = { x with
    directory := { x.directory with remotes := gone.foldl Register.erase x.directory.remotes }
    fanout := (gone.map fun i => Message.fault (fault i) x.identity i).foldl
      (fun q m => (q.dispatch m).1) x.fanout } := by
  induction gone generalizing x with
  | nil => rfl
  | cons i gone ih => exact ih

theorem toList_foldl_erase (r : Register Slot) :
    (gone.foldl Register.erase r).toList = r.toList.filter (·.1 ∉ gone) := by
  induction gone generalizing r with
  | nil => simp
  | cons i gone ih =>
    rw [List.foldl_cons, ih]
    simp only [Register.erase, List.filter_filter]
    refine List.filter_congr fun k _ => ?_
    by_cases hk : k.1 = i <;> simp [hk]

/-- An identity is given up if its contact is. -/
theorem mem_lost_iff (hnodup : (order.map Prod.fst).Nodup) (hc : c ∈ order) :
    c.1 ∈ x.lost order ↔ (x.isQuiet c.2 && x.isLost c.2) = true := by
  constructor
  · intro h
    obtain ⟨k, hk, heq⟩ := List.mem_map.1 h
    obtain ⟨hk, hlost⟩ := List.mem_filter.1 hk
    rw [← List.inj_on_of_nodup_map hnodup hk hc heq]
    exact hlost
  · exact fun h => List.mem_map_of_mem (List.mem_filter.2 ⟨hc, h⟩)

theorem sends_mem_deeds_iff (ping fault : Identity → Uuid) {k : Identity × Slot} :
    (∃ u, .sends (.ping u x.identity i) ∈ x.deeds ping fault k) ↔
      k.1 = i ∧ x.isQuiet k.2 = true := by
  by_cases hquiet : x.isQuiet k.2 = true <;> by_cases hlost : x.isLost k.2 = true <;>
    simp [deeds, hquiet, hlost, Message.ping, Message.plain, eq_comm]

theorem forgets_mem_deeds_iff (ping fault : Identity → Uuid) {k : Identity × Slot} :
    .forgets i ∈ x.deeds ping fault k ↔ k.1 = i ∧ (x.isQuiet k.2 && x.isLost k.2) = true := by
  by_cases hquiet : x.isQuiet k.2 = true <;> by_cases hlost : x.isLost k.2 = true <;>
    simp [deeds, hquiet, hlost, eq_comm]

theorem reports_mem_deeds_iff (ping fault : Identity → Uuid) {k : Identity × Slot} :
    (∃ u, .reports (.fault u x.identity i) ∈ x.deeds ping fault k) ↔
      k.1 = i ∧ (x.isQuiet k.2 && x.isLost k.2) = true := by
  by_cases hquiet : x.isQuiet k.2 = true <;> by_cases hlost : x.isLost k.2 = true <;>
    simp [deeds, hquiet, hlost, Message.fault, Message.withPayload, Message.plain, eq_comm]

end Engine

namespace Fabric

variable {f g : Fabric} {e : EngineId} {order : List (Identity × Slot)}

/-- **What one pass does**, in whatever order it looks at the contacts. If nothing that comes in
concerns the engine, it sends a ping to each contact that has not been heard of for the agent
timeout, and nothing else; it removes those who have not been heard of for the timeout times the
retries either, and hands its listeners a fault about each, after the ping. Nothing else about the
engine changes, and whom it pings, removes and reports does not depend on the order. -/
theorem pass_of_unanswered (horder : order.Perm (f.engine e).directory.remotes.toList)
    (hf : f.Undivided e) :
    ∃ log, (∀ g log', Passes e f order g log' ↔ g = f.pass e order ∧ log' = log) ∧
      ((∀ x m, .meets x m ∈ log → x.ignores m = true) →
        let x := f.engine e
        let y := (f.pass e order).engine e
        let idle (s : Slot) := x.clock - (x.directory.contact s).lastSeen
        let timeout := x.settings.agentTimeoutMillis
        let eviction := min (timeout * x.settings.agentRetries.toNat) 0xFFFFFFFFFFFFFFFF
        let quiet (c : Identity × Slot) : Bool := timeout ≤ idle c.2
        let lost (c : Identity × Slot) : Bool := quiet c && eviction ≤ idle c.2
        ∃ ping fault : Identity → Uuid,
          let faults := (order.filter lost).map fun c => Message.fault (fault c.1) x.identity c.1
          log.filter Incident.isDeed = order.flatMap (fun c =>
            if quiet c then
              .sends (.ping (ping c.1) x.identity c.1) ::
                if lost c then [.forgets c.1, .reports (.fault (fault c.1) x.identity c.1)] else []
            else []) ∧
          (∀ c ∈ x.directory.remotes.toList,
            ((∃ u, .sends (.ping u x.identity c.1) ∈ log) ↔ quiet c) ∧
            (.forgets c.1 ∈ log ↔ lost c) ∧
            ((∃ u, .reports (.fault u x.identity c.1) ∈ log) ↔ lost c)) ∧
          y.directory.remotes.toList = x.directory.remotes.toList.filter (!lost ·) ∧
          y = { x with
            directory := { x.directory with remotes := y.directory.remotes }
            fanout := faults.foldl (fun q m => (q.dispatch m).1) x.fanout } ∧
          (f.pass e order).members = f.members ∧
          ∀ name, f.KeptBy e name → (f.pass e order).noted name = f.noted name ++
            faults.flatMap fun m =>
              List.replicate ((x.fanout.dispatch m).2.count (.recorder name)) m) := by
  obtain ⟨log, hlog⟩ := exists_passes e f order
  refine ⟨log, fun g log' => passes_iff hlog, fun hig => ?_⟩
  intro x y idle timeout eviction quiet lost
  have hnodup : (order.map Prod.fst).Nodup := (horder.map _).nodup_iff.2 x.directory.remotes.nodup
  obtain ⟨ping, fault, hpass⟩ := hlog.unanswered hf hig hnodup fun c hc =>
    Directory.isRemote_of_remote? (Register.mem_toList.1 (horder.mem_iff.1 hc))
  have hmem : ∀ i : Incident, i.isDeed = true →
      (i ∈ log ↔ ∃ c ∈ order, i ∈ x.deeds ping fault c) := by
    intro i hi
    rw [← List.mem_flatMap, ← hpass.deeds, List.mem_filter, and_iff_left hi]
  have hunique : ∀ {c k : Identity × Slot} {p : Identity × Slot → Bool}, c ∈ order → k ∈ order →
      k.1 = c.1 ∧ p k = true → p c = true := fun hc hk h =>
    List.inj_on_of_nodup_map hnodup hk hc h.1 ▸ h.2
  have hdeeds : ∀ c ∈ order, x.deeds ping fault c = if quiet c then
      .sends (.ping (ping c.1) x.identity c.1) ::
        if lost c then [.forgets c.1, .reports (.fault (fault c.1) x.identity c.1)] else []
      else [] := by
    intro c _
    by_cases hquiet : x.isQuiet c.2 = true
    · have hlost : lost c = x.isLost c.2 := by
        change (x.isQuiet c.2 && x.isLost c.2) = x.isLost c.2
        rw [hquiet, Bool.true_and]
      rw [Engine.deeds, if_pos hquiet, if_pos (show quiet c = true from hquiet), hlost]
    · rw [Engine.deeds, if_neg hquiet, if_neg (show ¬quiet c = true from hquiet)]
  have hfaults : (order.filter lost).map (fun c => Message.fault (fault c.1) x.identity c.1) =
      (x.lost order).map fun i => Message.fault (fault i) x.identity i := by
    rw [Engine.lost, List.map_map]
    rfl
  refine ⟨ping, fault, hpass.deeds.trans (List.flatMap_congr hdeeds), fun c hc => ?_, ?_, ?_,
    hpass.ways.members, fun name hname => ?_⟩
  · have hc := horder.mem_iff.2 hc
    refine ⟨⟨?_, ?_⟩, ⟨?_, ?_⟩, ⟨?_, ?_⟩⟩
    · rintro ⟨u, hu⟩
      obtain ⟨k, hk, hu⟩ := (hmem _ rfl).1 hu
      exact hunique (p := quiet) hc hk ((Engine.sends_mem_deeds_iff _ _).1 ⟨u, hu⟩)
    · intro hquiet
      obtain ⟨u, hu⟩ := (Engine.sends_mem_deeds_iff (x := x) ping fault).2
        ⟨rfl, hquiet⟩
      exact ⟨u, (hmem _ rfl).2 ⟨c, hc, hu⟩⟩
    · intro hforgets
      obtain ⟨k, hk, hforgets⟩ := (hmem _ rfl).1 hforgets
      exact hunique (p := lost) hc hk ((Engine.forgets_mem_deeds_iff _ _).1 hforgets)
    · exact fun hlost => (hmem _ rfl).2 ⟨c, hc, (Engine.forgets_mem_deeds_iff _ _).2 ⟨rfl, hlost⟩⟩
    · rintro ⟨u, hu⟩
      obtain ⟨k, hk, hu⟩ := (hmem _ rfl).1 hu
      exact hunique (p := lost) hc hk ((Engine.reports_mem_deeds_iff _ _).1 ⟨u, hu⟩)
    · intro hlost
      obtain ⟨u, hu⟩ := (Engine.reports_mem_deeds_iff (x := x) ping fault).2
        ⟨rfl, hlost⟩
      exact ⟨u, (hmem _ rfl).2 ⟨c, hc, hu⟩⟩
  · simp only [y, hpass.engine, Engine.withoutAll_eq, Engine.toList_foldl_erase]
    refine List.filter_congr fun c hc => ?_
    rw [Bool.eq_iff_iff, decide_eq_true_eq, Engine.mem_lost_iff hnodup (horder.mem_iff.2 hc),
      Bool.not_eq_true', Bool.not_eq_true]
    rfl
  · simp only [y, hpass.engine, Engine.withoutAll_eq, hfaults]
    rfl
  · rw [hpass.noted name hname, hfaults, Engine.faultsFor, List.flatMap_map]

/-! ## Engines whose pings nobody answers -/

section Deserted

variable {d : EngineId} {m : Message} {i : Identity} {t u : Errand} {ts : List Errand}
  {log : List Incident}

def Reaches (f : Fabric) (e d : EngineId) : Prop :=
  ∃ x ∈ (f.engine e).gateways, d ∈ f.hears x

/-- Other engines may hear an engine, and their listeners may note what it sends, but no responder
there answers in the name of somebody whom the engine has listed. It has not listed itself. -/
structure Deserted (f : Fabric) (e : EngineId) : Prop where
  silent : ∀ d, d ≠ e → f.Reaches e d → ∀ a cloud,
    .responder a cloud ∈ (f.engine d).fanout.audience →
      (f.engine e).directory.isRemote (f.member a).agent.identity = false ∧
        (f.engine e).directory.isRemote cloud = false
  unlisted : (f.engine e).directory.isRemote (f.engine e).identity = false

/-- Recorders answer nothing, however many engines there are. -/
theorem deserted_of_recorders
    (hnotes : ∀ d, d ≠ e → f.Reaches e d → ∀ l ∈ (f.engine d).fanout.audience,
      ∃ name, l = .recorder name)
    (hunlisted : (f.engine e).directory.isRemote (f.engine e).identity = false) :
    f.Deserted e where
  silent := by
    intro d hd hreaches a cloud ha
    obtain ⟨name, hname⟩ := hnotes d hd hreaches _ ha
    contradiction
  unlisted := hunlisted

/-- An engine asks somebody whom it has listed for a sign of life. -/
def Pings (f : Fabric) (e : EngineId) (m : Message) : Prop :=
  ∃ u i, (f.engine e).directory.isRemote i = true ∧ m = .ping u (f.engine e).identity i

/-- A message that an engine has sent, on its way to those who hear the engine and to their
listeners. -/
def Spreads (f : Fabric) (e : EngineId) (m : Message) : Errand → Prop
  | ⟨.hand x n, _⟩ => n = m ∧ x ∈ (f.engine e).gateways
  | ⟨.receive d n, _⟩ | ⟨.process d n, _⟩ => n = m ∧ f.Reaches e d
  | ⟨.call (.recorder name) _, _⟩ => ¬f.KeptBy e name
  | ⟨.call (.responder a cloud) n, _⟩ => n = m ∧ (∀ s, (f.member a).standing ≠ .joined e s) ∧
      ∃ d, d ≠ e ∧ f.Reaches e d ∧ .responder a cloud ∈ (f.engine d).fanout.audience
  | ⟨.touch d sender _, _⟩ => d = e → sender = m.sender
  | _ => False

namespace Pings

theorem kind (hp : f.Pings e m) : m.kind = .ping := by
  obtain ⟨u, i, -, rfl⟩ := hp
  rfl

theorem carried (hp : f.Pings e m) : Bus.carried m = .ok m := by
  obtain ⟨u, i, -, rfl⟩ := hp
  exact Bus.carried_of_not_app (by simp [Message.ping, Message.plain])

theorem listed (hp : f.Pings e m) : (f.engine e).directory.isRemote m.recipient = true := by
  obtain ⟨u, i, hi, rfl⟩ := hp
  exact hi

theorem of_spared (hp : f.Pings e m) (hs : Spared e f g) : g.Pings e m := by
  rwa [Pings, hs.engine]

/-- It is not meant for the engine itself. -/
theorem ignores (hp : f.Pings e m) (hf : f.Deserted e) : (f.engine e).ignores m = true := by
  obtain ⟨u, i, hi, rfl⟩ := hp
  simp [Engine.ignores, Engine.admits, Message.ping, Message.plain, hf.unlisted, hi]

end Pings

theorem Spared.reaches (hs : Spared e f g) : g.Reaches e d ↔ f.Reaches e d := by
  simp only [Reaches, hs.engine, hs.ways.hears]

theorem Spreads.of_spared (ht : f.Spreads e m t) (hs : Spared e f g) : g.Spreads e m t := by
  obtain ⟨chore, causes⟩ := t
  cases chore with
  | hand x n => exact ⟨ht.1, hs.engine ▸ ht.2⟩
  | receive d n | process d n => exact ⟨ht.1, hs.reaches.2 ht.2⟩
  | touch d sender now => exact ht
  | send d n => exact ht.elim
  | call l n =>
    cases l with
    | recorder name => exact fun hkept => ht (hs.ways.keptBy.1 hkept)
    | responder a cloud =>
      obtain ⟨hn, hstands, d, hd, hreaches, ha⟩ := ht
      refine ⟨hn, fun s => ?_, d, hd, hs.reaches.2 hreaches, (hs.ways.audience d).symm ▸ ha⟩
      rw [member, hs.ways.members]
      exact hstands s

theorem Spreads.clear (ht : f.Spreads e m t) (hm : (f.engine e).ignores m = true) :
    f.Clear e t := by
  obtain ⟨chore, causes⟩ := t
  simp only [Engine.ignores, Bool.and_eq_true, Bool.not_eq_true'] at hm
  cases chore with
  | hand x n | receive d n | process d n => trivial
  | touch d sender now => exact fun hd => ht hd ▸ hm.1
  | send d n => exact ht.elim
  | call l n =>
    cases l with
    | recorder name => exact ht
    | responder a cloud => exact ht.2.1

theorem Spreads.ignores (ht : f.Spreads e m t) (hm : (f.engine e).ignores m = true) :
    Ignores (t.incidents e f) := by
  obtain ⟨chore, causes⟩ := t
  intro x n hn
  cases chore with
  | process d k =>
    obtain ⟨rfl, -⟩ := ht
    by_cases hd : d = e
    · subst hd
      simp only [Errand.incidents, if_pos, Engine.not_passesOn_of_ignores hm] at hn
      obtain ⟨rfl, rfl⟩ : x = f.engine d ∧ n = k := by simpa using hn
      exact hm
    · simp only [Errand.incidents, if_neg hd] at hn
      exact absurd hn List.not_mem_nil
  | hand x n | receive d n | call l n | touch d sender now => exact absurd hn List.not_mem_nil
  | send d n => exact ht.elim

/-- What another engine has to do about a ping. -/
theorem Pings.spreads_react (hp : f.Pings e m) (hun : f.Undivided e) (hd : d ≠ e)
    (hreaches : f.Reaches e d) (now : Nat) {causes : List Message} :
    ∀ u ∈ (f.reactErrand d m now causes).2, f.Spreads e m u := by
  intro u hu
  have hreaction : (f.engine d).reaction m = .dispatch := by simp [Engine.reaction, hp.kind]
  simp only [reactErrand, hreaction, dispatchErrand] at hu
  obtain ⟨l, hl, rfl⟩ := List.mem_map.1 hu
  have hl : l ∈ (f.engine d).fanout.audience := mem_dispatch hl
  cases l with
  | recorder name => exact fun hkept => hkept d hd hl
  | responder a cloud => exact ⟨rfl, fun s => hun d hd a cloud s hl, d, hd, hreaches, hl⟩

namespace Deserted

/-- Responders who hear of a ping for somebody who is listed are silent. -/
theorem reply?_eq_none (hf : f.Deserted e) (hp : f.Pings e m) (hd : d ≠ e)
    (hreaches : f.Reaches e d) {a : AgentId} {cloud : Identity}
    (ha : .responder a cloud ∈ (f.engine d).fanout.audience) (uuid : Uuid) :
    (f.member a).agent.reply? cloud uuid m = none := by
  obtain ⟨hidentity, hcloud⟩ := hf.silent d hd hreaches a cloud ha
  have hother : ∀ j, (f.engine e).directory.isRemote j = false → m.recipient ≠ j := by
    intro j hj heq
    rw [← heq, hp.listed] at hj
    contradiction
  rw [Agent.reply?, if_pos ⟨hother _ hidentity, hother _ hcloud⟩]

/-- A ping of a deserted engine goes to listeners, and no further. -/
theorem spreads (hf : f.Deserted e) (hp : f.Pings e m) (hun : f.Undivided e)
    (ht : f.Spreads e m t) : ∀ u ∈ (f.perform t).2, f.Spreads e m u := by
  obtain ⟨chore, causes⟩ := t
  intro u hu
  have hm := hp.ignores hf
  cases chore with
  | hand x n =>
    obtain ⟨rfl, hx⟩ := ht
    simp only [perform] at hu
    split at hu
    · next hconduit =>
      obtain ⟨c, hc, rfl⟩ := List.mem_map.1 hu
      have hsame : n = c.2 := Except.ok.inj (hp.carried.symm.trans (Closed.mem_send hc))
      exact ⟨hsame.symm, x, hx, mem_hears hconduit hc⟩
    · exact absurd hu List.not_mem_nil
  | receive d n =>
    simp only [perform] at hu
    split at hu
    · obtain rfl := List.mem_singleton.1 hu
      exact ht
    · exact absurd hu List.not_mem_nil
  | process d n =>
    obtain ⟨rfl, hreaches⟩ := ht
    by_cases hd : d = e
    · subst hd
      simp only [Engine.ignores, Bool.and_eq_true, Bool.not_eq_true'] at hm
      rw [perform_process_of_not_admits hm.2] at hu
      obtain rfl := List.mem_singleton.1 hu
      exact fun _ => rfl
    · have htouch : f.Spreads e n ⟨.touch d n.sender (f.engine d).clock, causes⟩ := fun _ => rfl
      rcases @perform_process f d n causes with h | h
      · rw [h] at hu
        exact List.mem_singleton.1 hu ▸ htouch
      · rw [h, List.mem_append, List.mem_singleton] at hu
        have hinspect : Spared e f (f.inspect d n) := spared_inspect
        rcases hu with hu | rfl
        · exact ((hp.of_spared hinspect).spreads_react (hinspect.ways.undivided hun) hd
            (hinspect.reaches.2 hreaches) _ u hu).of_spared hinspect.symm
        · exact htouch
  | call l n =>
    cases l with
    | recorder name => exact absurd hu List.not_mem_nil
    | responder a cloud =>
      obtain ⟨rfl, -, d, hd, hreaches, ha⟩ := ht
      have hsilent := hf.reply?_eq_none hp hd hreaches ha f.fresh.1
      simp only [perform, answerErrand, show f.fresh.2.member a = f.member a from rfl,
        hsilent] at hu
      exact absurd hu List.not_mem_nil
  | touch d sender now => exact absurd hu List.not_mem_nil
  | send d n => exact ht.elim

/-- Whom an engine lists may become less. -/
theorem of_ways (hf : f.Deserted e) (hw : f.SameWays g)
    (hidentity : (g.engine e).identity = (f.engine e).identity)
    (hless : ∀ j, (f.engine e).directory.isRemote j = false →
      (g.engine e).directory.isRemote j = false) : g.Deserted e where
  silent := by
    rintro d hd ⟨x, hx, hdx⟩ a cloud ha
    rw [hw.audience] at ha
    rw [member, hw.members]
    have hreaches : f.Reaches e d := ⟨x, hw.gateways e ▸ hx, hw.hears ▸ hdx⟩
    exact (hf.silent d hd hreaches a cloud ha).imp (hless _) (hless _)
  unlisted := hidentity ▸ hless _ hf.unlisted

theorem of_spared (hf : f.Deserted e) (hs : Spared e f g) : g.Deserted e :=
  hf.of_ways hs.ways (by rw [hs.engine]) fun j hj => by rw [hs.engine, hj]

end Deserted

/-- The engine ignores all that comes back of its ping. -/
theorem Logs.ignores_of_spreads (hlog : Logs (Errand.incidents e) f ts g log)
    (hun : f.Undivided e) (hf : f.Deserted e) (hp : f.Pings e m)
    (hts : ∀ t ∈ ts, f.Spreads e m t) : Ignores log := by
  induction hlog with
  | nil f => exact fun x n hn => absurd hn List.not_mem_nil
  | @cons f g h t ts now later hnow _ ihnow ihlater =>
    have ht := hts t List.mem_cons_self
    have hm := hp.ignores hf
    have hspreads := hf.spreads hp hun ht
    have hperform := (ht.clear hm).spares (ht.ignores hm)
    have hignow := ihnow (hperform.ways.undivided hun) (hf.of_spared hperform)
      (hp.of_spared hperform) fun u hu => (hspreads u hu).of_spared hperform
    have hrest := (hnow.clear (hperform.ways.undivided hun)
      (fun u hu => ((hspreads u hu).clear hm).of_spared hperform) hignow).1
    have hdone := hperform.trans hrest
    have higlater := ihlater (hdone.ways.undivided hun) (hf.of_spared hdone) (hp.of_spared hdone)
      fun u hu => (hts u (List.mem_cons_of_mem t hu)).of_spared hdone
    intro x n hn
    rcases List.mem_append.1 hn with hn | hn
    · rcases List.mem_append.1 hn with hn | hn
      · exact ht.ignores hm x n hn
      · exact hignow x n hn
    · exact higlater x n hn

theorem Asks.ignores_of_deserted (hasked : Asks e f i g log) (hun : f.Undivided e)
    (hf : f.Deserted e) (hlisted : (f.engine e).directory.isRemote i = true) : Ignores log := by
  obtain ⟨rest, hrest, rfl⟩ := Logs.of_singleton hasked
  have hfresh : Spared e f f.fresh.2 := spared_fresh
  have hping : f.Pings e (.ping f.fresh.1 (f.engine e).identity i) := ⟨_, i, hlisted, rfl⟩
  have hignores := Logs.ignores_of_spreads hrest (hfresh.ways.undivided hun) (hf.of_spared hfresh)
    (hping.of_spared hfresh) fun u hu => by
      obtain ⟨x, hx, rfl⟩ := List.mem_map.1 hu
      exact ⟨rfl, hx⟩
  intro x n hn
  rw [Errand.incidents, if_pos rfl, List.singleton_append, List.mem_cons] at hn
  rcases hn with hn | hn
  · contradiction
  · exact hignores x n hn

theorem Unanswered.deserted {c : Identity × Slot} {ping fault : Identity → Uuid}
    (h : Unanswered e f g [c] log ping fault) (hf : f.Deserted e)
    (hlisted : (f.engine e).directory.isRemote c.1 = true) : g.Deserted e := by
  refine hf.of_ways h.ways ?_ fun j hj => ?_
  · rw [h.engine, Engine.withoutAll_eq]
  · have hother : j ≠ c.1 := fun heq => by
      rw [heq, hlisted] at hj
      contradiction
    rw [h.isRemote (by simpa using hother), hj]

/-- **A pass of a deserted engine is not answered**, whoever hears its pings. -/
theorem Passes.ignores_of_deserted (hpass : Passes e f order g log) (hun : f.Undivided e)
    (hf : f.Deserted e) (hnodup : (order.map Prod.fst).Nodup)
    (hlisted : ∀ c ∈ order, (f.engine e).directory.isRemote c.1 = true) : Ignores log := by
  induction hpass with
  | done f => exact fun x m hm => absurd hm List.not_mem_nil
  | @spare f g c order later hquiet _ ih =>
    rw [List.map_cons, List.nodup_cons] at hnodup
    exact ih hun hf hnodup.2 fun k hk => hlisted k (List.mem_cons_of_mem c hk)
  | @ask f g h c order asked later hquiet hasked hstays _ ih =>
    rw [List.map_cons, List.nodup_cons] at hnodup
    have hlistedc := hlisted c List.mem_cons_self
    have hignores := hasked.ignores_of_deserted hun hf hlistedc
    have hfirst := unanswered_ask hun hquiet hlistedc hasked hignores hstays
    have hlater := ih (hfirst.ways.undivided hun) (hfirst.deserted hf hlistedc) hnodup.2
      (hfirst.listed hnodup.1 hlisted)
    intro x m hm
    exact (List.mem_append.1 hm).elim (hignores x m) (hlater x m)
  | @giveUp f g h k c order x asked told later hquiet hasked hevicted htold _ ih =>
    rw [List.map_cons, List.nodup_cons] at hnodup
    have hlistedc := hlisted c List.mem_cons_self
    have hignores := hasked.ignores_of_deserted hun hf hlistedc
    obtain ⟨rfl, hfirst⟩ := unanswered_giveUp hun hquiet hlistedc hasked hignores hevicted htold
    have hlater := ih (hfirst.ways.undivided hun) (hfirst.deserted hf hlistedc) hnodup.2
      (hfirst.listed hnodup.1 hlisted)
    intro y m hm
    rcases List.mem_append.1 hm with hm | hm
    · exact hignores y m (by simpa using hm)
    · exact hlater y m hm

/-- An engine that only itself hears. -/
structure Solitary (f : Fabric) (e : EngineId) : Prop where
  hears : ∀ x ∈ (f.engine e).gateways, ∀ d ∈ f.hears x, d = e
  unlisted : (f.engine e).directory.isRemote (f.engine e).identity = false

theorem Solitary.deserted (hf : f.Solitary e) : f.Deserted e :=
  deserted_of_recorders (fun d hd ⟨x, hx, hdx⟩ => absurd (hf.hears x hx d hdx) hd) hf.unlisted

end Deserted

/-- An engine that hears only itself through a socket that works, one that fails, and a gateway that
refuses everything. Of its three contacts one has not been heard of for long, one for a while, and
one was heard of in the future. -/
def nightwatch : Fabric :=
  let directory := ((Directory.empty.announce (.agent (.ofNat 1)) .empty 0).announce
    (.agent (.ofNat 2)) .empty 80).announce (.agent (.ofNat 3)) .empty 200
  { empty 0 with
    buses := [⟨[⟨"lan", [0], false, false⟩, ⟨"wan", [0], false, true⟩], [], 4096⟩]
    gateways := [⟨"lan", .socket 0 0⟩, ⟨"wan", .socket 0 1⟩, ⟨"radio", .sink none []⟩]
    engines := [⟨.cloud default, ⟨.ofMillis 10, 3, .ofMillis 5000, .inline⟩, [0, 1, 2], 0, directory,
      ((Fanout.empty .inline).subscribe (.recorder "log")).1, 100, none, true⟩] }

theorem undivided_nightwatch : nightwatch.Undivided 0 := by
  intro d hd a cloud s ha
  have hnobody : (nightwatch.engine d).fanout.audience = [] := by
    cases d with
    | zero => contradiction
    | succ d => rfl
  rw [hnobody] at ha
  contradiction

theorem solitary_nightwatch : nightwatch.Solitary 0 where
  hears := by decide
  unlisted := by decide

theorem pass_of_unanswered_nightwatch : ∃ (u v w : Uuid) (log : List Incident),
    Passes 0 nightwatch (nightwatch.engine 0).directory.remotes.toList
      (nightwatch.probe 0) log ∧
    log.filter Incident.isDeed = [
      .sends (.ping u (.cloud default) (.agent (.ofNat 1))), .forgets (.agent (.ofNat 1)),
      .reports (.fault v (.cloud default) (.agent (.ofNat 1))),
      .sends (.ping w (.cloud default) (.agent (.ofNat 2)))] ∧
    ((nightwatch.probe 0).engine 0).directory.remotes.toList =
      [(.agent (.ofNat 2), 1), (.agent (.ofNat 3), 2)] := by
  rw [probe_eq_pass]
  obtain ⟨log, hlog, hpass⟩ := pass_of_unanswered (.refl _) undivided_nightwatch
  have hrun := (hlog _ _).2 ⟨rfl, rfl⟩
  have hignores := hrun.ignores_of_deserted undivided_nightwatch solitary_nightwatch.deserted
    (by decide) (by decide)
  obtain ⟨ping, fault, hdeeds, -, hremotes, -⟩ := hpass hignores
  exact ⟨ping (.agent (.ofNat 1)), fault (.agent (.ofNat 1)), ping (.agent (.ofNat 2)), log, hrun,
    hdeeds.trans rfl, hremotes.trans rfl⟩

end Fabric

end Overlay
