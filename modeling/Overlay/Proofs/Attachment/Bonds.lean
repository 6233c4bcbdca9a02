import Mathlib.Data.List.Nodup
import Overlay.Proofs.Attachment.Scene

/-!
# What holds at every turn

Registrations and responders do not come from nowhere. Each is kept up in one place: by a call that
is under way, or by an agent that is attached (`Place`, `Tie`). A turn may move a tie from one place
to another, as the end of a join does from the call to the agent, or take one up or give one up; in
between, an engine that is not shut down has exactly the registrations and responders of its ties
(`Tidy`). For that each agent has to be in one join at most (`Orderly`).
-/

namespace Overlay

namespace Fabric

variable {f : Fabric} {d e : EngineId} {a : AgentId}

/-! ## What the turns change -/

theorem directory_setDirectory (D : Directory) (he : e < f.engines.length) :
    ((f.setDirectory e D).engine d).directory = if d = e then D else (f.engine d).directory := by
  by_cases hd : d = e
  · subst hd
    rw [if_pos rfl]
    exact congrArg Engine.directory (engine_setEngine_self _ he)
  · rw [if_neg hd]
    exact congrArg Engine.directory (engine_setEngine_ne _ hd)

theorem fanout_setFanout (F : Fanout Hearer) (he : e < f.engines.length) :
    ((f.setFanout e F).engine d).fanout = if d = e then F else (f.engine d).fanout := by
  by_cases hd : d = e
  · subst hd
    rw [if_pos rfl]
    exact congrArg Engine.fanout (engine_setEngine_self _ he)
  · rw [if_neg hd]
    exact congrArg Engine.fanout (engine_setEngine_ne _ hd)

theorem directory_setFanout (F : Fanout Hearer) :
    ((f.setFanout e F).engine d).directory = (f.engine d).directory :=
  part_setEngine Engine.directory (by rfl) d

theorem closeGateways_eq (xs : List GatewayId) :
    ∃ buses, xs.foldl (fun f x => (f.closeGateway x).1) f = { f with buses := buses } := by
  induction xs generalizing f with
  | nil => exact ⟨f.buses, rfl⟩
  | cons x xs ih =>
    obtain ⟨buses, h⟩ := @ih (f.closeGateway x).1
    refine ⟨buses, ?_⟩
    rw [List.foldl_cons, h]
    unfold closeGateway
    split <;> rfl

/-- A shutdown forgets whom the engine knows, and changes nothing else that matters to agents. -/
theorem engine_shutdown_ne (hne : d ≠ e) : (f.shutdown e).engine d = f.engine d := by
  obtain ⟨buses, h⟩ := @closeGateways_eq (f.stopTasks e) ((f.stopTasks e).engine e).gateways
  simp only [shutdown, h]
  rw [setDirectory, engine_setEngine_ne _ hne]
  exact engine_setEngine_ne _ hne

theorem members_shutdown : (f.shutdown e).members = f.members := by
  obtain ⟨buses, h⟩ := @closeGateways_eq (f.stopTasks e) ((f.stopTasks e).engine e).gateways
  simp only [shutdown, h]
  rfl

theorem length_shutdown : (f.shutdown e).engines.length = f.engines.length := by
  obtain ⟨buses, h⟩ := @closeGateways_eq (f.stopTasks e) ((f.stopTasks e).engine e).gateways
  simp only [shutdown, h]
  simp [setDirectory, setEngine, stopTasks, clearTimers]

end Fabric

/-! ## Ties -/

/-- What keeps up a registration: a call that is under way, or an agent that is attached. -/
inductive Place where
  | call (call : Nat)
  | agent (agent : AgentId)
deriving DecidableEq

/-- The bond of an agent to an engine with which it is registered, and its responder if there is
one. -/
structure Tie where
  agent : AgentId
  engine : EngineId
  responder : Option SubscriptionId
deriving DecidableEq

namespace Stage

/-- The registration for which a call is answerable at a stage. -/
def tie? : Stage → Option Tie
  | .waiting a e | .dropped a e | .departing a e => some ⟨a, e, none⟩
  | .subscribed a e r | .leaving a e r => some ⟨a, e, some r⟩
  | .entering _ _ | .refused _ _ | .over => none

/-- The agent that is joining by a call at a stage, and the engine. -/
def joins? : Stage → Option (AgentId × EngineId)
  | .entering a e | .refused a e | .waiting a e | .subscribed a e _ => some (a, e)
  | .dropped _ _ | .leaving _ _ _ | .departing _ _ | .over => none

end Stage

/-- The registration that comes with being attached. -/
def Standing.tie? (a : AgentId) : Standing → Option Tie
  | joined e r => some ⟨a, e, some r⟩
  | detached | joining _ => none

namespace Scene

/-- The registration that is kept up somewhere. -/
def tie? (s : Scene) : Place → Option Tie
  | .call k => (s.call k).tie?
  | .agent a => (s.standing a).tie? a

variable {s s' : Scene} {j k : Nat} {a b : AgentId} {c d e : EngineId} {stage : Stage} {f : Fabric}
  {i : Identity} {p q : Place} {r r' : Option SubscriptionId} {t : Turn} {ts : List Turn}

theorem lt_of_call (hcall : s.call k ≠ .over) : k < s.calls.length := by
  refine Nat.lt_of_not_le fun hle => hcall ?_
  simp [call, List.getD, List.getElem?_eq_none hle]

theorem call_move (hcall : s.call k ≠ .over) :
    (s.move k stage f).call j = if j = k then stage else s.call j := by
  by_cases hj : j = k
  · subst hj
    simp [move, call, List.getD, lt_of_call hcall]
  · simp [move, call, List.getD, hj, Ne.symm hj]

theorem call_enter :
    (s.enter stage f).call j = if j = s.calls.length then stage else s.call j := by
  simp only [enter, call, List.getD, List.getElem?_append]
  rcases Nat.lt_trichotomy j s.calls.length with hj | rfl | hj
  · simp [hj, Nat.ne_of_lt hj]
  · simp
  · have hlt : ¬j < s.calls.length := by omega
    have hsub : j - s.calls.length ≠ 0 := by omega
    simp [hlt, Nat.ne_of_gt hj, hsub]

theorem call_length : s.call s.calls.length = .over := by simp [call]

theorem lt_of_standing (hstanding : s.standing a ≠ .detached) : a < s.fabric.members.length := by
  refine Nat.lt_of_not_le fun hle => hstanding ?_
  simp only [standing, Fabric.member, List.getD, List.getElem?_eq_none hle, Option.getD_none]
  rfl

/-! ## Joins under way -/

/-- An agent is joining if and only if one call is under way by which it is. -/
structure Orderly (s : Scene) : Prop where
  engine : ∀ {k a e}, (s.call k).joins? = some (a, e) → e < s.fabric.engines.length
  joining : ∀ {k a e}, (s.call k).joins? = some (a, e) → s.standing a = .joining e
  joiner : ∀ {a e}, s.standing a = .joining e → ∃ k, (s.call k).joins? = some (a, e)
  once : ∀ {j k a d e}, (s.call j).joins? = some (a, d) → (s.call k).joins? = some (a, e) → j = k

/-- The same calls are joins under way, and the same agents are joining. -/
theorem Orderly.of_same (h : s.Orderly)
    (hlength : s'.fabric.engines.length = s.fabric.engines.length)
    (hcalls : ∀ k, (s'.call k).joins? = (s.call k).joins?)
    (hstanding : ∀ a e, s'.standing a = .joining e ↔ s.standing a = .joining e) : s'.Orderly where
  engine := fun hk => hlength ▸ h.engine (hcalls _ ▸ hk)
  joining := fun hk => (hstanding _ _).2 (h.joining (hcalls _ ▸ hk))
  joiner := fun ha => by
    obtain ⟨k, hk⟩ := h.joiner ((hstanding _ _).1 ha)
    exact ⟨k, (hcalls k).trans hk⟩
  once := fun hj hk => h.once (hcalls _ ▸ hj) (hcalls _ ▸ hk)

/-- A join begins. -/
theorem Orderly.begin (h : s.Orderly) (ha : a < s.fabric.members.length)
    (he : e < s.fabric.engines.length) (hstanding : s.standing a = .detached) :
    (s.enter (.entering a e) (s.fabric.setStanding a (.joining e))).Orderly := by
  have hnow : ∀ b, (s.enter (.entering a e) (s.fabric.setStanding a (.joining e))).standing b =
      if b = a then .joining e else s.standing b := fun b => Fabric.standing_setStanding _ ha
  have hnobody : ∀ {k d}, (s.call k).joins? ≠ some (a, d) := by
    intro k d hk
    rw [h.joining hk] at hstanding
    contradiction
  constructor
  case engine =>
    intro k b d hk
    rw [call_enter] at hk
    split at hk
    · cases hk
      exact he
    · exact h.engine hk
  case joining =>
    intro k b d hk
    rw [call_enter] at hk
    rw [hnow]
    split at hk
    · cases hk
      rw [if_pos rfl]
    · have hb : b ≠ a := by
        rintro rfl
        exact hnobody hk
      rw [if_neg hb]
      exact h.joining hk
  case joiner =>
    intro b d hb
    rw [hnow] at hb
    split at hb
    · next hba =>
      cases hb
      exact ⟨s.calls.length, by rw [call_enter, if_pos rfl, hba]; rfl⟩
    · obtain ⟨k, hk⟩ := h.joiner hb
      refine ⟨k, ?_⟩
      rw [call_enter, if_neg, hk]
      rintro rfl
      rw [call_length] at hk
      contradiction
  case once =>
    intro j k b d d' hj hk
    rw [call_enter] at hj hk
    split at hj
    · split at hk
      · next hj' hk' => rw [hj', hk']
      · cases hj
        exact absurd hk hnobody
    · split at hk
      · cases hk
        exact absurd hj hnobody
      · exact h.once hj hk

/-- A join comes to its end, and its agent is joining no longer. -/
theorem Orderly.finish (h : s.Orderly) {x : Standing} (hcall : (s.call k).joins? = some (a, e))
    (hstage : stage.joins? = none) (hx : ∀ d, x ≠ .joining d) :
    (s.move k stage (s.fabric.setStanding a x)).Orderly := by
  have hstanding := h.joining hcall
  have ha : a < s.fabric.members.length := lt_of_standing (by rw [hstanding]; simp)
  have hover : s.call k ≠ .over := by
    intro hk
    rw [hk] at hcall
    contradiction
  have hcalls : ∀ j, ((s.move k stage (s.fabric.setStanding a x)).call j).joins? =
      if j = k then none else (s.call j).joins? := by
    intro j
    rw [call_move hover]
    split
    · exact hstage
    · rfl
  have hnow : ∀ b, (s.move k stage (s.fabric.setStanding a x)).standing b =
      if b = a then x else s.standing b := fun b => Fabric.standing_setStanding _ ha
  constructor
  case engine =>
    intro j b d hj
    rw [hcalls] at hj
    split at hj
    · contradiction
    · exact h.engine hj
  case joining =>
    intro j b d hj
    rw [hcalls] at hj
    rw [hnow]
    split at hj
    · contradiction
    · next hjk =>
      have hb : b ≠ a := by
        rintro rfl
        exact hjk (h.once hj hcall)
      rw [if_neg hb]
      exact h.joining hj
  case joiner =>
    intro b d hb
    rw [hnow] at hb
    split at hb
    · exact absurd hb (hx d)
    · next hba =>
      obtain ⟨j, hj⟩ := h.joiner hb
      refine ⟨j, ?_⟩
      rw [hcalls, if_neg, hj]
      rintro rfl
      rw [hcall] at hj
      cases hj
      exact hba rfl
  case once =>
    intro i j b d d' hi hj
    rw [hcalls] at hi hj
    split at hi
    · contradiction
    · split at hj
      · contradiction
      · exact h.once hi hj

theorem Orderly.step (h : s.Orderly) (hstep : Step s t s') : s'.Orderly := by
  -- A call that gets on, and is under way to join afterwards as it was before.
  have hmove : ∀ {k stage f}, s.call k ≠ .over → stage.joins? = (s.call k).joins? →
      f.engines.length = s.fabric.engines.length → f.members = s.fabric.members →
      (s.move k stage f).Orderly := by
    intro k stage f hover hstage hlength hmembers
    refine h.of_same hlength (fun j => ?_) fun a e => ?_
    · rw [call_move hover]
      split
      · next hj => rw [hj, hstage]
      · rfl
    · simp [standing, Fabric.member, move, hmembers]
  cases hstep with
  | begin ha he hstanding => exact h.begin ha he hstanding
  | register hcall hinsert =>
    exact hmove (by simp [hcall]) (by simp [hcall, Stage.joins?]) (Fabric.length_setEngine _) rfl
  | refuse hcall hinsert => exact hmove (by simp [hcall]) (by simp [hcall, Stage.joins?]) rfl rfl
  | reset hcall => exact h.finish (by rw [hcall]; rfl) rfl (by simp)
  | subscribe hcall =>
    exact hmove (by simp [hcall]) (by simp [hcall, Stage.joins?]) (Fabric.length_setEngine _) rfl
  | settle hcall => exact h.finish (by rw [hcall]; rfl) rfl (by simp)
  | drop hcall => exact h.finish (by rw [hcall]; rfl) rfl (by simp)
  | abandon hcall =>
    exact hmove (by simp [hcall]) (by simp [hcall, Stage.joins?]) (Fabric.length_setEngine _) rfl
  | @leave a e r hstanding =>
    have ha : a < s.fabric.members.length := lt_of_standing (by rw [hstanding]; simp)
    refine h.of_same rfl (fun k => ?_) fun b d => ?_
    · rw [call_enter]
      split
      · next hk => rw [hk, call_length]; rfl
      · rfl
    · rw [show (s.enter (.leaving a e r) (s.fabric.setStanding a .detached)).standing b = _ from
        Fabric.standing_setStanding _ ha]
      split
      · next hb => simp [hb, hstanding]
      · rfl
  | unsubscribe hcall =>
    exact hmove (by simp [hcall]) (by simp [hcall, Stage.joins?]) (Fabric.length_setEngine _) rfl
  | unregister hcall =>
    exact hmove (by simp [hcall]) (by simp [hcall, Stage.joins?]) (Fabric.length_setEngine _) rfl
  | shutdown e =>
    refine h.of_same Fabric.length_shutdown (fun _ => rfl) fun a d => ?_
    simp [standing, Fabric.member, Fabric.members_shutdown]
  | other haloof =>
    refine h.of_same haloof.engines (fun _ => rfl) fun a d => ?_
    rw [standing, haloof.standing, standing]

/-! ## Registrations and responders -/

/-- Where a tie only gets or loses its responder, the same agents are tied to the same engines. -/
theorem tied_iff (hp : s.tie? p = some ⟨a, e, r⟩)
    (hties : ∀ o, s'.tie? o = if o = p then some ⟨a, e, r'⟩ else s.tie? o) :
    (∃ x, s'.tie? q = some ⟨b, c, x⟩) ↔ ∃ x, s.tie? q = some ⟨b, c, x⟩ := by
  rw [hties]
  split
  · next hqp =>
    subst hqp
    rw [hp]
    simp
  · rfl

/-- What holds of an engine that is not shut down: those are registered whose registration is kept
up, each in one place, and they have the responders that go with that. -/
structure Tidy (c : EngineId) (s : Scene) : Prop where
  registered : ∀ {i a}, s.local? c i = some a ↔
    s.identity a = i ∧ ∃ p r, s.tie? p = some ⟨a, c, r⟩
  single : ∀ {p q a r r'}, s.tie? p = some ⟨a, c, r⟩ → s.tie? q = some ⟨a, c, r'⟩ → p = q
  responders : ∀ {r a}, (r, a) ∈ s.responders c ↔ ∃ p, s.tie? p = some ⟨a, c, some r⟩
  nodup : ((s.responders c).map Prod.fst).Nodup
  below : ∀ {x}, x ∈ s.responders c → x.1 < (s.fabric.engine c).fanout.next

namespace Tidy

/-- A registration that is kept up. -/
theorem local? (h : s.Tidy c) (hp : s.tie? p = some ⟨a, c, r⟩) :
    s.local? c (s.identity a) = some a :=
  h.registered.2 ⟨rfl, p, r, hp⟩

/-- A subscription is that of one responder. -/
theorem eq_of_responder {r : SubscriptionId} (h : s.Tidy c) (ha : (r, a) ∈ s.responders c)
    (hb : (r, b) ∈ s.responders c) : a = b :=
  congrArg Prod.snd (List.inj_on_of_nodup_map h.nodup ha hb rfl)

/-- Nothing of the engine has changed. -/
theorem of_same (h : s.Tidy c) (hidentity : ∀ a, s'.identity a = s.identity a)
    (hlocal : ∀ i, s'.local? c i = s.local? c i)
    (hties : ∀ p a r, s'.tie? p = some ⟨a, c, r⟩ ↔ s.tie? p = some ⟨a, c, r⟩)
    (hresponders : s'.responders c = s.responders c)
    (hnext : (s.fabric.engine c).fanout.next ≤ (s'.fabric.engine c).fanout.next) : s'.Tidy c where
  registered := by
    intro i a
    simp only [hlocal, hidentity, hties]
    exact h.registered
  single := fun hp hq => h.single ((hties _ _ _).1 hp) ((hties _ _ _).1 hq)
  responders := by
    intro r a
    simp only [hresponders, hties]
    exact h.responders
  nodup := hresponders ▸ h.nodup
  below := fun hx => Nat.lt_of_lt_of_le (h.below (hresponders ▸ hx)) hnext

/-- A registration is kept up in another place than before. -/
theorem pass (h : s.Tidy c) (hpq : p ≠ q) {t : Option Tie}
    (hidentity : ∀ a, s'.identity a = s.identity a)
    (hlocal : ∀ i, s'.local? c i = s.local? c i)
    (hp : s.tie? p = t) (hq : s.tie? q = none)
    (hties : ∀ o, s'.tie? o = if o = p then none else if o = q then t else s.tie? o)
    (hresponders : s'.responders c = s.responders c)
    (hnext : (s.fabric.engine c).fanout.next ≤ (s'.fabric.engine c).fanout.next) : s'.Tidy c := by
  have hsome : ∀ {u : Tie}, (∃ o, s'.tie? o = some u) ↔ ∃ o, s.tie? o = some u := by
    intro u
    constructor
    · rintro ⟨o, ho⟩
      rw [hties] at ho
      split at ho
      · contradiction
      · split at ho
        · exact ⟨p, hp.trans ho⟩
        · exact ⟨o, ho⟩
    · rintro ⟨o, ho⟩
      by_cases hop : o = p
      · refine ⟨q, ?_⟩
        rw [hties, if_neg hpq.symm, if_pos rfl, ← hp, ← hop, ho]
      · refine ⟨o, ?_⟩
        have hoq : o ≠ q := by
          rintro rfl
          rw [hq] at ho
          contradiction
        rw [hties, if_neg hop, if_neg hoq, ho]
  constructor
  case registered =>
    intro i a
    have hswap : (∃ o r, s'.tie? o = some ⟨a, c, r⟩) ↔ ∃ o r, s.tie? o = some ⟨a, c, r⟩ := by
      rw [exists_comm, exists_comm (α := Place)]
      exact exists_congr fun r => hsome
    rw [hlocal, hidentity, hswap]
    exact h.registered
  case single =>
    intro o o' a r r' ho ho'
    rw [hties] at ho ho'
    split at ho
    · contradiction
    · split at ho'
      · contradiction
      · split at ho
        · split at ho'
          · next hoq hoq' => rw [hoq, hoq']
          · next hop _ _ => exact absurd (h.single ho' (hp.trans ho)) hop
        · split at ho'
          · next hop _ _ _ => exact absurd (h.single ho (hp.trans ho')) hop
          · exact h.single ho ho'
  case responders =>
    intro r a
    rw [hresponders, hsome]
    exact h.responders
  case nodup => exact hresponders ▸ h.nodup
  case below => exact fun hx => Nat.lt_of_lt_of_le (h.below (hresponders ▸ hx)) hnext

/-- An agent is registered under an identity that was free. -/
theorem take (h : s.Tidy c) (hfree : s.local? c (s.identity a) = none)
    (hidentity : ∀ a, s'.identity a = s.identity a)
    (hlocal : ∀ i, s'.local? c i = if i = s.identity a then some a else s.local? c i)
    (hp : s.tie? p = none)
    (hties : ∀ o, s'.tie? o = if o = p then some ⟨a, c, none⟩ else s.tie? o)
    (hresponders : s'.responders c = s.responders c)
    (hnext : (s'.fabric.engine c).fanout.next = (s.fabric.engine c).fanout.next) : s'.Tidy c := by
  have hnone : ∀ {o b r}, s.identity b = s.identity a → s.tie? o ≠ some ⟨b, c, r⟩ := by
    intro o b r hb ho
    have hlocal := h.local? ho
    rw [hb, hfree] at hlocal
    contradiction
  constructor
  case registered =>
    intro i b
    rw [hlocal, hidentity]
    constructor
    · intro hi
      split at hi
      · next hia =>
        obtain rfl := Option.some.inj hi
        exact ⟨hia.symm, p, none, by rw [hties, if_pos rfl]⟩
      · obtain ⟨hb, o, r, ho⟩ := h.registered.1 hi
        refine ⟨hb, o, r, ?_⟩
        rw [hties, if_neg, ho]
        rintro rfl
        rw [hp] at ho
        contradiction
    · rintro ⟨rfl, o, r, ho⟩
      rw [hties] at ho
      split at ho
      · cases ho
        rw [if_pos rfl]
      · rw [if_neg fun hb => hnone hb ho]
        exact h.local? ho
  case single =>
    intro o o' b r r' ho ho'
    rw [hties] at ho ho'
    split at ho
    · split at ho'
      · next hop hop' => rw [hop, hop']
      · cases ho
        exact absurd ho' (hnone rfl)
    · split at ho'
      · cases ho'
        exact absurd ho (hnone rfl)
      · exact h.single ho ho'
  case responders =>
    intro r b
    rw [hresponders, h.responders]
    refine exists_congr fun o => ?_
    rw [hties]
    split
    · next hop => simp [hop, hp]
    · rfl
  case nodup => exact hresponders ▸ h.nodup
  case below => exact fun hx => hnext ▸ h.below (hresponders ▸ hx)

/-- A registration that was kept up is removed. -/
theorem release (h : s.Tidy c) (hidentity : ∀ a, s'.identity a = s.identity a)
    (hlocal : ∀ i, s'.local? c i = if i = s.identity a then none else s.local? c i)
    (hp : s.tie? p = some ⟨a, c, none⟩)
    (hties : ∀ o, s'.tie? o = if o = p then none else s.tie? o)
    (hresponders : s'.responders c = s.responders c)
    (hnext : (s'.fabric.engine c).fanout.next = (s.fabric.engine c).fanout.next) : s'.Tidy c := by
  constructor
  case registered =>
    intro i b
    rw [hlocal, hidentity]
    constructor
    · intro hi
      split at hi
      · contradiction
      · next hia =>
        obtain ⟨hb, o, r, ho⟩ := h.registered.1 hi
        refine ⟨hb, o, r, ?_⟩
        rw [hties, if_neg, ho]
        rintro rfl
        rw [hp] at ho
        cases ho
        exact hia hb.symm
    · rintro ⟨rfl, o, r, ho⟩
      rw [hties] at ho
      split at ho
      · contradiction
      · next hop =>
        have hb := h.local? ho
        rw [if_neg fun hba => ?_]
        · exact hb
        · rw [hba, h.local? hp] at hb
          cases hb
          exact hop (h.single ho hp)
  case single =>
    intro o o' b r r' ho ho'
    rw [hties] at ho ho'
    split at ho
    · contradiction
    · split at ho'
      · contradiction
      · exact h.single ho ho'
  case responders =>
    intro r b
    rw [hresponders, h.responders]
    refine exists_congr fun o => ?_
    rw [hties]
    split
    · next hop => simp [hop, hp]
    · rfl
  case nodup => exact hresponders ▸ h.nodup
  case below => exact fun hx => hnext ▸ h.below (hresponders ▸ hx)

/-- The responder of a registration is subscribed. -/
theorem subscribe (h : s.Tidy c) (hidentity : ∀ a, s'.identity a = s.identity a)
    (hlocal : ∀ i, s'.local? c i = s.local? c i)
    (hp : s.tie? p = some ⟨a, c, none⟩)
    (hties : ∀ o, s'.tie? o =
      if o = p then some ⟨a, c, some (s.fabric.engine c).fanout.next⟩ else s.tie? o)
    (hresponders : s'.responders c = s.responders c ++ [((s.fabric.engine c).fanout.next, a)])
    (hnext : (s'.fabric.engine c).fanout.next = (s.fabric.engine c).fanout.next + 1) :
    s'.Tidy c := by
  constructor
  case registered =>
    intro i b
    rw [hlocal, hidentity, h.registered]
    exact and_congr_right fun _ => exists_congr fun o => (tied_iff hp hties).symm
  case single =>
    intro o o' b x x' ho ho'
    obtain ⟨y, hy⟩ := (tied_iff hp hties).1 ⟨x, ho⟩
    obtain ⟨y', hy'⟩ := (tied_iff hp hties).1 ⟨x', ho'⟩
    exact h.single hy hy'
  case responders =>
    intro r b
    rw [hresponders, List.mem_append, List.mem_singleton, h.responders]
    constructor
    · rintro (⟨o, ho⟩ | hr)
      · refine ⟨o, ?_⟩
        rw [hties, if_neg, ho]
        rintro rfl
        rw [hp] at ho
        cases ho
      · cases hr
        exact ⟨p, by rw [hties, if_pos rfl]⟩
    · rintro ⟨o, ho⟩
      rw [hties] at ho
      split at ho
      · cases ho
        exact .inr rfl
      · exact .inl ⟨o, ho⟩
  case nodup =>
    rw [hresponders, List.map_append, List.nodup_append]
    refine ⟨h.nodup, by simp, fun r hr r' hr' => ?_⟩
    obtain ⟨x, hx, rfl⟩ := List.mem_map.1 hr
    obtain rfl : r' = (s.fabric.engine c).fanout.next := by simpa using hr'
    exact Nat.ne_of_lt (h.below hx)
  case below =>
    intro x hx
    rw [hresponders, List.mem_append, List.mem_singleton] at hx
    rw [hnext]
    rcases hx with hx | rfl
    · exact Nat.lt_succ_of_lt (h.below hx)
    · exact Nat.lt_succ_self _

/-- The responder of a registration is subscribed no longer. -/
theorem unsubscribe {r : SubscriptionId} (h : s.Tidy c)
    (hidentity : ∀ a, s'.identity a = s.identity a) (hlocal : ∀ i, s'.local? c i = s.local? c i)
    (hp : s.tie? p = some ⟨a, c, some r⟩)
    (hties : ∀ o, s'.tie? o = if o = p then some ⟨a, c, none⟩ else s.tie? o)
    (hresponders : s'.responders c = (s.responders c).filter (·.1 ≠ r))
    (hnext : (s'.fabric.engine c).fanout.next = (s.fabric.engine c).fanout.next) : s'.Tidy c := by
  have hmem : (r, a) ∈ s.responders c := h.responders.2 ⟨p, hp⟩
  constructor
  case registered =>
    intro i b
    rw [hlocal, hidentity, h.registered]
    exact and_congr_right fun _ => exists_congr fun o => (tied_iff hp hties).symm
  case single =>
    intro o o' b x x' ho ho'
    obtain ⟨y, hy⟩ := (tied_iff hp hties).1 ⟨x, ho⟩
    obtain ⟨y', hy'⟩ := (tied_iff hp hties).1 ⟨x', ho'⟩
    exact h.single hy hy'
  case responders =>
    intro r' b
    rw [hresponders, List.mem_filter, h.responders]
    constructor
    · rintro ⟨⟨o, ho⟩, hr⟩
      refine ⟨o, ?_⟩
      rw [hties, if_neg, ho]
      rintro rfl
      rw [hp] at ho
      cases ho
      simp at hr
    · rintro ⟨o, ho⟩
      rw [hties] at ho
      split at ho
      · cases ho
      · next hop =>
        refine ⟨⟨o, ho⟩, decide_eq_true fun hr => ?_⟩
        -- Numbers are given once, so a responder of this number would be the one that has ended.
        obtain rfl : r' = r := hr
        have hsame := h.eq_of_responder (h.responders.2 ⟨o, ho⟩) hmem
        subst hsame
        exact hop (h.single ho hp)
  case nodup => exact hresponders ▸ h.nodup.sublist (List.filter_sublist.map Prod.fst)
  case below =>
    intro x hx
    rw [hresponders] at hx
    exact hnext ▸ h.below (List.mem_filter.1 hx).1

end Tidy

/-! ## One turn -/

/-- A call that gets on changes what it is answerable for, and no attached agent. -/
theorem tie?_move (hover : s.call k ≠ .over)
    (hstanding : ∀ b, (f.member b).standing.tie? b = (s.standing b).tie? b) (o : Place) :
    (s.move k stage f).tie? o = if o = .call k then stage.tie? else s.tie? o := by
  cases o with
  | call j =>
    simp only [tie?, call_move hover, Place.call.injEq]
    split <;> rfl
  | agent b =>
    rw [if_neg (by simp)]
    exact hstanding b

theorem tie?_enter (hstanding : ∀ b, (f.member b).standing.tie? b = (s.standing b).tie? b)
    (o : Place) :
    (s.enter stage f).tie? o = if o = .call s.calls.length then stage.tie? else s.tie? o := by
  cases o with
  | call j =>
    simp only [tie?, call_enter, Place.call.injEq]
    split <;> rfl
  | agent b =>
    rw [if_neg (by simp)]
    exact hstanding b

/-- An agent that is about to be attached, or to be detached, was not attached before. -/
theorem tie?_setStanding {x : Standing} (ha : a < s.fabric.members.length)
    (hsame : x.tie? a = (s.standing a).tie? a) (b : AgentId) :
    ((s.fabric.setStanding a x).member b).standing.tie? b = (s.standing b).tie? b := by
  rw [Fabric.standing_setStanding x ha]
  split
  · next hb => rw [hb, hsame]
  · rfl

theorem tie?_settle (hover : s.call k ≠ .over) (ha : a < s.fabric.members.length) {x : Standing}
    (o : Place) :
    (s.move k .over (s.fabric.setStanding a x)).tie? o =
      if o = .call k then none else if o = .agent a then x.tie? a else s.tie? o := by
  cases o with
  | call j =>
    simp only [tie?, call_move hover, Place.call.injEq, reduceCtorEq, if_false]
    split <;> rfl
  | agent b =>
    have hnow : (s.move k .over (s.fabric.setStanding a x)).standing b =
        if b = a then x else s.standing b := Fabric.standing_setStanding x ha
    simp only [tie?, hnow, Place.agent.injEq, reduceCtorEq, if_false]
    split
    · next hb => rw [hb]
    · rfl

theorem tie?_leave (ha : a < s.fabric.members.length) (o : Place) :
    (s.enter stage (s.fabric.setStanding a .detached)).tie? o =
      if o = .agent a then none
      else if o = .call s.calls.length then stage.tie? else s.tie? o := by
  cases o with
  | call j =>
    simp only [tie?, call_enter, Place.call.injEq, reduceCtorEq, if_false]
    split <;> rfl
  | agent b =>
    have hnow : (s.enter stage (s.fabric.setStanding a .detached)).standing b =
        if b = a then .detached else s.standing b := Fabric.standing_setStanding _ ha
    simp only [tie?, hnow, Place.agent.injEq, reduceCtorEq, if_false]
    split <;> rfl

/-- What changes at places that have to do with another engine. -/
theorem ties_elsewhere {u : Option Tie} (hne : c ≠ e)
    (hp : ∀ x, s.tie? p = some x → x.engine = e) (hu : ∀ x, u = some x → x.engine = e)
    (hties : ∀ o, s'.tie? o = if o = p then u else s.tie? o) (o : Place) (b : AgentId)
    (r : Option SubscriptionId) : s'.tie? o = some ⟨b, c, r⟩ ↔ s.tie? o = some ⟨b, c, r⟩ := by
  rw [hties]
  split
  · next hop =>
    subst hop
    exact ⟨fun h => absurd (hu _ h) hne, fun h => absurd (hp _ h) hne⟩
  · rfl

theorem tie?_call : s.tie? (.call k) = (s.call k).tie? := rfl

theorem local?_setDirectory {D : Directory} (he : e < s.fabric.engines.length) :
    (s.move k stage (s.fabric.setDirectory e D)).local? e i = D.local? i := by
  rw [local?, move, Fabric.directory_setDirectory D he, if_pos rfl]

theorem responders_setDirectory {D : Directory} :
    (s.move k stage (s.fabric.setDirectory e D)).responders c = s.responders c := by
  rw [responders, move, Fabric.fanout_setDirectory, responders]

theorem next_setDirectory {D : Directory} :
    ((s.move k stage (s.fabric.setDirectory e D)).fabric.engine c).fanout.next =
      (s.fabric.engine c).fanout.next := by
  rw [move, Fabric.fanout_setDirectory]

theorem local?_setFanout {F : Fanout Hearer} :
    (s.move k stage (s.fabric.setFanout e F)).local? c i = s.local? c i := by
  rw [local?, move, Fabric.directory_setFanout, local?]

theorem fanout_setFanout_self {F : Fanout Hearer} (he : e < s.fabric.engines.length) :
    ((s.move k stage (s.fabric.setFanout e F)).fabric.engine e).fanout = F := by
  rw [move, Fabric.fanout_setFanout F he, if_pos rfl]

theorem identity_setStanding {x : Standing} (b : AgentId) :
    ((s.fabric.setStanding a x).member b).agent.identity = s.identity b :=
  congrArg Agent.identity (Fabric.agent_setStanding x)

namespace Tidy

/-- A call gets on that is answerable for the same as before, and only the standing of agents
changes that are not attached. -/
theorem keep (h : s.Tidy c) (hover : s.call k ≠ .over) (hstage : stage.tie? = (s.call k).tie?)
    (hengines : f.engines = s.fabric.engines)
    (hidentity : ∀ b, (f.member b).agent.identity = s.identity b)
    (hstanding : ∀ b, (f.member b).standing.tie? b = (s.standing b).tie? b) :
    (s.move k stage f).Tidy c := by
  have hengine : (s.move k stage f).fabric.engine c = s.fabric.engine c := by
    rw [Fabric.engine, show (s.move k stage f).fabric.engines = _ from hengines, Fabric.engine]
  refine h.of_same hidentity (fun i => ?_) (fun o b r => ?_) ?_ ?_
  · rw [Scene.local?, hengine, Scene.local?]
  · rw [tie?_move hover hstanding]
    split
    · next ho => rw [ho, hstage, tie?_call]
    · rfl
  · rw [Scene.responders, hengine, Scene.responders]
  · exact Nat.le_of_eq (by rw [hengine])

/-- Nothing has changed but another engine, and where a call has got to that has to do with that. -/
theorem elsewhere {x : Engine} (h : s.Tidy c) (hne : c ≠ e) (hover : s.call k ≠ .over)
    (hcall : ∀ u, (s.call k).tie? = some u → u.engine = e)
    (hstage : ∀ u, stage.tie? = some u → u.engine = e) :
    (s.move k stage (s.fabric.setEngine e x)).Tidy c := by
  have hengine : (s.move k stage (s.fabric.setEngine e x)).fabric.engine c = s.fabric.engine c :=
    Fabric.engine_setEngine_ne x hne
  refine h.of_same (fun _ => rfl) (fun i => ?_) ?_ ?_ ?_
  · rw [Scene.local?, hengine, Scene.local?]
  · exact ties_elsewhere (p := .call k) hne hcall hstage (tie?_move hover fun _ => rfl)
  · rw [Scene.responders, hengine, Scene.responders]
  · exact Nat.le_of_eq (by rw [hengine])

theorem register {D : Directory} (h : s.Tidy c) (he : e < s.fabric.engines.length)
    (hcall : s.call k = .entering a e)
    (hinsert : (s.fabric.engine e).directory.insertLocal? (s.identity a) a = some D) :
    (s.move k (.waiting a e) (s.fabric.setDirectory e D)).Tidy c := by
  have hover : s.call k ≠ .over := by simp [hcall]
  have hp : s.tie? (.call k) = none := by rw [tie?_call, hcall]; rfl
  by_cases hc : c = e
  · subst hc
    have ⟨hfree, hD⟩ := Directory.insertLocal?_eq_some hinsert
    refine h.take hfree (fun _ => rfl) (fun i => ?_) hp (tie?_move hover fun _ => rfl)
      responders_setDirectory next_setDirectory
    rw [local?_setDirectory he, hD]
    exact Register.get?_enter _ _ _ _
  · exact h.elsewhere hc hover (by simp [hcall, Stage.tie?]) (by simp [Stage.tie?])

theorem subscribed (h : s.Tidy c) (he : e < s.fabric.engines.length)
    (hcall : s.call k = .waiting a e) :
    (s.move k (.subscribed a e (s.fabric.engine e).fanout.next)
      (s.fabric.setFanout e ((s.fabric.engine e).fanout.subscribe
        (.responder a (s.fabric.engine e).identity)).1)).Tidy c := by
  have hover : s.call k ≠ .over := by simp [hcall]
  have hp : s.tie? (.call k) = some ⟨a, e, none⟩ := by rw [tie?_call, hcall]; rfl
  by_cases hc : c = e
  · subst hc
    refine h.subscribe (fun _ => rfl) (fun i => local?_setFanout) hp (tie?_move hover fun _ => rfl)
      ?_ ?_
    · rw [Scene.responders, fanout_setFanout_self he, Fanout.responders_subscribe, Scene.responders]
    · rw [fanout_setFanout_self he]
      rfl
  · exact h.elsewhere hc hover (by simp [hcall, Stage.tie?]) (by simp [Stage.tie?])

theorem unsubscribed {r : SubscriptionId} (h : s.Tidy c) (hcall : s.call k = .leaving a e r) :
    (s.move k (.departing a e)
      (s.fabric.setFanout e ((s.fabric.engine e).fanout.unsubscribe r))).Tidy c := by
  have hover : s.call k ≠ .over := by simp [hcall]
  have hp : s.tie? (.call k) = some ⟨a, e, some r⟩ := by rw [tie?_call, hcall]; rfl
  by_cases hc : c = e
  · subst hc
    have he := Fabric.lt_of_local? (h.local? hp)
    refine h.unsubscribe (fun _ => rfl) (fun i => local?_setFanout) hp
      (tie?_move hover fun _ => rfl) ?_ ?_
    · rw [Scene.responders, fanout_setFanout_self he, Fanout.responders_unsubscribe,
        Scene.responders]
    · rw [fanout_setFanout_self he]
      rfl
  · exact h.elsewhere hc hover (by simp [hcall, Stage.tie?]) (by simp [Stage.tie?])

/-- A call removes the registration for which it is answerable, by identity or by agent. -/
theorem removed {D : Directory} (h : s.Tidy c) (hcall : (s.call k).tie? = some ⟨a, e, none⟩)
    (hD : s.local? e (s.identity a) = some a →
      ∀ i, D.local? i = if i = s.identity a then none else s.local? e i) :
    (s.move k .over (s.fabric.setDirectory e D)).Tidy c := by
  have hover : s.call k ≠ .over := by
    intro hk
    rw [hk] at hcall
    contradiction
  by_cases hc : c = e
  · subst hc
    have hlocal := h.local? (p := .call k) hcall
    refine h.release (p := .call k) (fun _ => rfl) (fun i => ?_) hcall
      (tie?_move hover fun _ => rfl) responders_setDirectory next_setDirectory
    rw [local?_setDirectory (Fabric.lt_of_local? hlocal), hD hlocal]
  · exact h.elsewhere hc hover (by simp [hcall]) (by simp [Stage.tie?])

theorem of_shutdown (h : s.Tidy c) (hne : c ≠ e) :
    (⟨s.fabric.shutdown e, s.calls⟩ : Scene).Tidy c := by
  have hengine : (s.fabric.shutdown e).engine c = s.fabric.engine c :=
    Fabric.engine_shutdown_ne hne
  have hmember : ∀ a, (s.fabric.shutdown e).member a = s.fabric.member a := by
    intro a
    rw [Fabric.member, Fabric.members_shutdown, Fabric.member]
  refine h.of_same (fun a => ?_) (fun i => ?_) (fun o a r => ?_) ?_ ?_
  · rw [identity, hmember, identity]
  · rw [Scene.local?, hengine, Scene.local?]
  · cases o with
    | call k => rfl
    | agent b => rw [tie?, standing, hmember, tie?, standing]
  · rw [Scene.responders, hengine, Scene.responders]
  · exact Nat.le_of_eq (by rw [hengine])

theorem of_aloof {g : Fabric} (h : s.Tidy c) (haloof : s.fabric.Aloof g) :
    (⟨g, s.calls⟩ : Scene).Tidy c := by
  refine h.of_same haloof.identity (fun i => ?_) (fun o a r => ?_) (haloof.responders c)
    (haloof.next c)
  · rw [Scene.local?, Directory.local?, haloof.locals, Scene.local?, Directory.local?]
  · cases o with
    | call k => rfl
    | agent b => rw [tie?, standing, haloof.standing, tie?, standing]

/-- **An engine that is not shut down stays tidy.** -/
theorem step (h : s.Tidy c) (ho : s.Orderly) (hstep : Step s t s') (ht : t ≠ .shutdown c) :
    s'.Tidy c := by
  -- A call by which an agent is joining detaches it.
  have hdetach : ∀ {k a e stage}, (s.call k).joins? = some (a, e) →
      stage.tie? = (s.call k).tie? →
        (s.move k stage (s.fabric.setStanding a .detached)).Tidy c := by
    intro k a e stage hcall hstage
    have hstanding := ho.joining hcall
    refine h.keep (fun hk => ?_) hstage rfl identity_setStanding
      (tie?_setStanding (lt_of_standing (by rw [hstanding]; simp)) (by rw [hstanding]; rfl))
    rw [hk] at hcall
    contradiction
  cases hstep with
  | @begin a e ha he hstanding =>
    refine h.of_same identity_setStanding (fun _ => rfl) (fun o b r => ?_) rfl (Nat.le_refl _)
    rw [tie?_enter (tie?_setStanding ha (by rw [hstanding]; rfl))]
    split
    · next hplace => simp [hplace, tie?_call, call_length, Stage.tie?]
    · rfl
  | register hcall hinsert => exact h.register (ho.engine (by rw [hcall]; rfl)) hcall hinsert
  | refuse hcall hinsert =>
    exact h.keep (by simp [hcall]) (by rw [hcall]; rfl) rfl (fun _ => rfl) fun _ => rfl
  | reset hcall => exact hdetach (by rw [hcall]; rfl) (by rw [hcall]; rfl)
  | subscribe hcall => exact h.subscribed (ho.engine (by rw [hcall]; rfl)) hcall
  | @settle k a e r hcall =>
    have hstanding : s.standing a = .joining e := ho.joining (k := k) (by rw [hcall]; rfl)
    have ha : a < s.fabric.members.length := lt_of_standing (by rw [hstanding]; simp)
    exact h.pass (p := .call k) (q := .agent a) (by simp) identity_setStanding (fun _ => rfl)
      (by rw [tie?_call, hcall]; rfl) (by rw [tie?, hstanding]; rfl)
      (tie?_settle (by simp [hcall]) ha) rfl (Nat.le_refl _)
  | drop hcall => exact hdetach (by rw [hcall]; rfl) (by rw [hcall]; rfl)
  | @abandon k a e hcall =>
    refine h.removed (by rw [hcall]; rfl) fun hlocal i => ?_
    have hentry : (s.fabric.engine e).directory.locals.get? (s.identity a) = some a := hlocal
    rw [Directory.local?, Directory.removeLocalAgent, Register.get?_eraseIf]
    simp only [hentry, and_true]
    rfl
  | @leave a e r hstanding =>
    have ha : a < s.fabric.members.length := lt_of_standing (by rw [hstanding]; simp)
    exact h.pass (p := .agent a) (q := .call s.calls.length) (by simp) identity_setStanding
      (fun _ => rfl) (by rw [tie?, hstanding]; rfl) (by rw [tie?_call, call_length]; rfl)
      (tie?_leave ha) rfl (Nat.le_refl _)
  | unsubscribe hcall => exact h.unsubscribed hcall
  | unregister hcall =>
    exact h.removed (by rw [hcall]; rfl) fun _ i => Directory.local?_removeLocal
  | shutdown e => exact h.of_shutdown fun hc => ht (hc ▸ rfl)
  | other haloof => exact h.of_aloof haloof

end Tidy

end Scene

end Overlay
