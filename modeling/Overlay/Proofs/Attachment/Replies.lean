import Overlay.Proofs.Attachment.Situations

/-!
# Through which engine an agent answers

A responder knows the engine by whose dispatch it is called, but its agent sends the answer through
the engine to which it is attached by then (`Fabric.answer?`). The two are the same as long
as the agent has not begun to leave (`Scene.Held`). A message that is on its way when the agent
leaves still reaches the responder, and if the agent has been attached to another engine meanwhile,
that is where the answer goes.
-/

namespace Overlay

namespace Fabric

variable {f : Fabric} {a : AgentId} {cloud : Identity} {m : Message} {e : EngineId}

/-- The engine through which an agent answers a message, and the answer, if it does. -/
def answer? (f : Fabric) (a : AgentId) (cloud : Identity) (m : Message) :
    Option (EngineId × Message) :=
  match (f.member a).agent.reply? cloud f.fresh.1 m, (f.member a).standing with
  | some reply, .joined e _ => some (e, reply)
  | _, _ => none

/-- That is what a responder sends, and nothing else. -/
theorem callHearer_responder (receive : Reception) (f : Fabric) (a : AgentId) (cloud : Identity)
    (m : Message) : f.callHearer receive m (.responder a cloud) =
      match f.answer? a cloud m with
      | some (e, reply) => (f.fresh.2.sendBy receive e reply).1
      | none => f.fresh.2 := by
  have hreply : (f.fresh.2.member a).agent = (f.member a).agent := rfl
  have hstanding : (f.fresh.2.member a).standing = (f.member a).standing := rfl
  simp only [callHearer, answerBy, answer?, hreply, hstanding]
  cases (f.member a).agent.reply? cloud f.fresh.1 m with
  | none => rfl
  | some reply => cases (f.member a).standing <;> rfl

theorem answer?_eq_some {reply : Message} : f.answer? a cloud m = some (e, reply) ↔
    (f.member a).agent.reply? cloud f.fresh.1 m = some reply ∧
      ∃ r, (f.member a).standing = .joined e r := by
  unfold answer?
  cases (f.member a).agent.reply? cloud f.fresh.1 m with
  | none => simp
  | some reply' => cases (f.member a).standing <;> simp [and_comm]

end Fabric

/-! ## Agents that have not begun to leave -/

namespace Scene

variable {s s' : Scene} {a : AgentId} {c : EngineId} {r : SubscriptionId} {t : Turn}
  {ts : List Turn}

/-- An agent is attached to an engine, or about to be. -/
def Held (s : Scene) (a : AgentId) (c : EngineId) : Prop :=
  (∃ k r, s.call k = .subscribed a c r) ∨ ∃ r, s.standing a = .joined c r

theorem Held.step (h : s.Held a c) (ho : s.Orderly) (hstep : Step s t s')
    (ht : t ≠ .act .leave a c) : s'.Held a c := by
  rcases h with ⟨k, r, hk⟩ | ⟨r, hr⟩
  · by_cases hsettle : ∃ b d, t = .act .settle b d
    · obtain ⟨b, d, rfl⟩ := hsettle
      cases hstep with
      | @settle j b d q hcall =>
        by_cases hj : k = j
        · subst hj
          obtain ⟨rfl, rfl, rfl⟩ := Stage.subscribed.inj (hk.symm.trans hcall)
          have hstanding : s.standing a = .joining c := ho.joining (k := k) (by rw [hk]; rfl)
          have ha : a < s.fabric.members.length := lt_of_standing (by rw [hstanding]; simp)
          exact .inr ⟨r, Fabric.standing_setStanding_self _ ha⟩
        · exact .inl ⟨k, r, by rw [call_move (by simp [hcall]), if_neg hj, hk]⟩
    · exact .inl ⟨k, r, subscribed_step hk hstep fun b d hbd => hsettle ⟨b, d, hbd⟩⟩
  · rcases joined_step (a := a) ho hstep with ⟨d, rfl, -⟩ | ⟨d, rfl, -⟩ | ⟨-, -, hsame⟩
    · cases hstep with
      | @settle k a d q hcall =>
        have hstanding : s.standing a = .joining d := ho.joining (k := k) (by rw [hcall]; rfl)
        rw [hr] at hstanding
        contradiction
    · cases hstep with
      | leave hstanding =>
        obtain ⟨rfl, -⟩ := Standing.joined.inj (hr.symm.trans hstanding)
        exact absurd rfl ht
    · exact .inr ⟨r, (hsame c r).2 hr⟩

theorem Held.run (h : s.Held a c) (ho : s.Orderly) (hrun : Run s ts s')
    (ht : .act .leave a c ∉ ts) : s'.Held a c := by
  induction hrun with
  | nil => exact h
  | cons hrun hstep ih =>
    simp only [List.mem_cons, not_or] at ht
    exact (ih ht.2).step (ho.run hrun) hstep fun h => ht.1 h.symm

/-- An agent that is held is attached to no other engine. -/
theorem Held.eq (h : s.Held a c) (ho : s.Orderly) {e : EngineId} (he : s.standing a = .joined e r) :
    e = c := by
  rcases h with ⟨k, q, hk⟩ | ⟨q, hq⟩
  · have hstanding : s.standing a = .joining c := ho.joining (k := k) (by rw [hk]; rfl)
    rw [he] at hstanding
    contradiction
  · exact (Standing.joined.inj (he.symm.trans hq)).1

/-- The agent of a subscribed responder is held, or has just begun to leave. -/
theorem Tidy.held (h : s.Tidy c) (hmem : (r, a) ∈ s.responders c)
    (hstays : ∀ k, s.call k ≠ .leaving a c r) : s.Held a c := by
  obtain ⟨p, hp⟩ := h.responders.1 hmem
  cases p with
  | call k =>
    rw [tie?_call] at hp
    cases hk : s.call k with
    | subscribed b d q =>
      rw [hk] at hp
      cases hp
      exact .inl ⟨k, r, hk⟩
    | leaving b d q =>
      rw [hk] at hp
      cases hp
      exact absurd hk (hstays k)
    | _ =>
      rw [hk] at hp
      simp [Stage.tie?] at hp
  | agent b =>
    rw [tie?] at hp
    cases hb : s.standing b with
    | joined d q =>
      rw [hb] at hp
      cases hp
      exact .inr ⟨r, hb⟩
    | _ =>
      rw [hb] at hp
      simp [Standing.tie?] at hp

end Scene

/-! ## Deliveries -/

namespace Situation

variable {f : Fabric} {p q s : Situation} {x : Happening} {xs ys : List Happening} {i : Nat}
  {a : AgentId} {c e : EngineId} {m : Message} {cloud : Identity} {due rest : List Hearer}

/-- Of the listeners of a delivery, some have been called. -/
theorem Step.delivery (hstep : Step p x q) (hdue : p.deliveries[i]? = some ⟨c, m, due⟩) :
    ∃ rest, q.deliveries[i]? = some ⟨c, m, rest⟩ ∧ rest ⊆ due := by
  have hlt := (List.getElem?_eq_some_iff.1 hdue).1
  cases hstep with
  | turn => exact ⟨due, hdue, List.Subset.refl _⟩
  | drop => exact ⟨due, hdue, List.Subset.refl _⟩
  | dispatch => exact ⟨due, by rw [List.getElem?_append_left hlt, hdue], List.Subset.refl _⟩
  | take => exact ⟨due, by rw [List.getElem?_append_left hlt, hdue], List.Subset.refl _⟩
  | @call j d n l rest receive hnext =>
    by_cases hj : j = i
    · subst hj
      obtain ⟨rfl, rfl, rfl⟩ := Delivery.mk.inj (Option.some.inj (hdue.symm.trans hnext))
      exact ⟨rest, List.getElem?_set_self hlt, List.subset_cons_self _ _⟩
    · exact ⟨due, by rw [List.getElem?_set_ne hj, hdue], List.Subset.refl _⟩

theorem Course.delivery (hcourse : Course p xs q) (hdue : p.deliveries[i]? = some ⟨c, m, due⟩) :
    ∃ rest, q.deliveries[i]? = some ⟨c, m, rest⟩ ∧ rest ⊆ due := by
  induction hcourse with
  | nil => exact ⟨due, hdue, List.Subset.refl _⟩
  | cons _ hstep ih =>
    obtain ⟨due', hdue', hsub⟩ := ih
    obtain ⟨rest, hrest, hsub'⟩ := hstep.delivery hdue'
    exact ⟨rest, hrest, List.Subset.trans hsub' hsub⟩

/-- A delivery is begun for listeners that are subscribed. -/
theorem Step.begins (hstep : Step p x q) (hx : (∃ m, x = .dispatch c m) ∨ x = .take c) :
    ∃ m due, q.deliveries[p.deliveries.length]? = some ⟨c, m, due⟩ ∧
      due ⊆ (p.scene.fabric.engine c).fanout.audience := by
  cases hstep with
  | @dispatch d m fanout audience hdispatch =>
    obtain rfl : d = c := by simpa using hx
    refine ⟨m, audience, List.getElem?_concat_length, ?_⟩
    unfold Fanout.dispatch at hdispatch
    split at hdispatch
    · cases hdispatch
      exact List.Subset.refl _
    · cases hdispatch
      exact List.nil_subset _
  | @take d m fanout audience htake =>
    obtain rfl : d = c := by simpa using hx
    refine ⟨m, audience, List.getElem?_concat_length, ?_⟩
    unfold Fanout.take? at htake
    split at htake
    · contradiction
    · cases htake
      exact List.Subset.refl _
  | _ => simp at hx

theorem mem_responders_of_audience {F : Fanout Hearer} (hmem : .responder a cloud ∈ F.audience) :
    ∃ r, (r, a) ∈ F.responders := by
  obtain ⟨⟨r, l⟩, hl, rfl⟩ := List.mem_map.1 hmem
  exact ⟨r, List.mem_filterMap.2 ⟨_, hl, rfl⟩⟩

/-- **An agent answers through the engine to which it is attached.** Let messages be dispatched and
delivered, calls of any number of agents be interleaved with that in any way, and anything else
happen. When a responder is called with a message that an engine has dispatched, its agent answers
if the message asks for it and the agent is attached, and it answers through the engine to which it
is attached then. That is the engine that dispatched the message, unless the agent has begun to
leave that engine. -/
theorem answers_where_attached (hf : f.Vacant) (hcourse : Course (quiet f) xs p)
    (hx : (∃ m, x = .dispatch c m) ∨ x = .take c) (hstep : Step p x q) (hlater : Course q ys s)
    (hdue : s.deliveries[p.deliveries.length]? = some ⟨c, m, .responder a cloud :: rest⟩) :
    (∀ receive, s.scene.fabric.callHearer receive m (.responder a cloud) =
      match s.scene.fabric.answer? a cloud m with
      | some (e, reply) => (s.scene.fabric.fresh.2.sendBy receive e reply).1
      | none => s.scene.fabric.fresh.2) ∧
    (∀ e reply, s.scene.fabric.answer? a cloud m = some (e, reply) ↔
      (s.scene.fabric.member a).agent.reply? cloud s.scene.fabric.fresh.1 m = some reply ∧
        Scene.attachment (turns (ys ++ x :: xs)) a = some e) ∧
    (.turn (.shutdown c) ∉ xs → (∀ k r, p.scene.call k ≠ .leaving a c r) →
      .turn (.act .leave a c) ∉ ys →
      ∀ e reply, s.scene.fabric.answer? a cloud m = some (e, reply) → e = c) := by
  have hwhole : Course (quiet f) (ys ++ x :: xs) s := (hcourse.cons hstep).append hlater
  refine ⟨fun receive => Fabric.callHearer_responder receive _ a cloud m, fun e reply => ?_,
    fun hup hstays hleave e reply hanswer => ?_⟩
  · rw [Fabric.answer?_eq_some, ← Scene.joined_iff_attachment hf hwhole.run]
    rfl
  · have ho := (Scene.orderly_of_vacant hf).run hcourse.run
    have htidy : p.scene.Tidy c := (Scene.tidy_of_vacant hf c).run (Scene.orderly_of_vacant hf)
      hcourse.run fun h => hup ((mem_turns (by simp)).1 h)
    -- The responder was subscribed when the delivery was begun.
    obtain ⟨n, due, hbegun, hsub⟩ := hstep.begins hx
    obtain ⟨rest', hrest, hsub'⟩ := hlater.delivery hbegun
    obtain ⟨-, -, rfl⟩ := Delivery.mk.inj (Option.some.inj (hrest.symm.trans hdue))
    obtain ⟨r, hr⟩ := mem_responders_of_audience (hsub (hsub' List.mem_cons_self))
    have hheld := htidy.held hr fun k => hstays k r
    -- Since then the agent has not begun to leave.
    have hsince : Course p (ys ++ [x]) s := (Course.nil.cons hstep).append hlater
    have hnone : .act .leave a c ∉ turns (ys ++ [x]) := by
      rw [mem_turns (by simp), List.mem_append, List.mem_singleton]
      rintro (h | rfl)
      · exact hleave h
      · simp at hx
    obtain ⟨-, r', hjoined⟩ := Fabric.answer?_eq_some.1 hanswer
    exact (hheld.run ho hsince.run hnone).eq (ho.run hsince.run) hjoined

/-! ## An agent that moves -/

/-- Two engines, an agent, and somebody who listens at the first engine. -/
def pair : Fabric :=
  let f := (Fabric.empty 0).addEngine (.cloud (Uuid.ofNat 1)) .standard [] 0 0
  let f := f.addEngine (.cloud (Uuid.ofNat 2)) .standard [] 0 0
  (f.addAgent ⟨.agent default, .empty⟩).listen 0 "slow"

theorem vacant_pair : pair.Vacant :=
  (((Fabric.Vacant.empty 0).addEngine.addEngine).addAgent ⟨.agent default, .empty⟩).aloof
    (.listen "slow")

def joins (f : Fabric) (e : EngineId) : Fabric :=
  match f.enroll 0 e with
  | .ok f => f.attach 0 e
  | .error _ => f

def knock : Message :=
  .ping default (.agent (Uuid.ofNat 3)) (.agent default)

/-- The first engine dispatches the ping, and somebody else is called with it first. Meanwhile the
agent leaves that engine and joins the other one, and then it is the agent's turn. -/
theorem course_pair : ∃ xs p q ys s, Course (quiet pair) xs p ∧ Step p (.take 0) q ∧
    Course q ys s ∧ s.deliveries[p.deliveries.length]? =
      some ⟨0, knock, [.responder 0 (.cloud (Uuid.ofNat 1))]⟩ ∧
    ∃ reply, s.scene.fabric.answer? 0 (.cloud (Uuid.ofNat 1)) knock = some (1, reply) := by
  have hjoin : Scene.Run ⟨pair, []⟩ _ ⟨joins pair 0, [.over]⟩ :=
    (Scene.run_enroll (by decide) (by decide) rfl).append (Scene.run_attach (k := 0) rfl)
  have hdispatch := (course_of_run hjoin []).cons (.dispatch (c := 0) (m := knock) rfl)
  -- The listener that is called first takes its time, and meanwhile the agent moves.
  exact ⟨_, _, _, _, _, hdispatch, .take (c := 0) rfl,
    (Course.nil.cons (.call (i := 1) rfl Fabric.Aloof.receive)).append (course_of_run
      ((((Scene.Run.nil.cons (.leave (a := 0) rfl)).cons (.unsubscribe (k := 1) rfl)).cons
        (.unregister (k := 1) rfl)).append
          ((Scene.run_enroll (a := 0) (e := 1) (by decide) (by decide) rfl).append
            (Scene.run_attach (k := 2) rfl))) _), rfl, _, rfl⟩

theorem answers_where_attached_pair : ∃ xs p q ys s, Course (quiet pair) xs p ∧
    Step p (.take 0) q ∧ Course q ys s ∧
    Scene.attachment (turns (ys ++ .take 0 :: xs)) 0 = some 1 := by
  obtain ⟨xs, p, q, ys, s, hcourse, hstep, hlater, hdue, reply, hanswer⟩ := course_pair
  have hanswers := answers_where_attached vacant_pair hcourse (.inr rfl) hstep hlater hdue
  exact ⟨xs, p, q, ys, s, hcourse, hstep, hlater, ((hanswers.2.1 1 reply).1 hanswer).2⟩

/-- An answer may leave through another engine than the one that dispatched the message. -/
theorem not_answers_where_dispatched : ¬∀ (f : Fabric) (xs ys : List Happening) (x : Happening)
    (p q s : Situation) (c e : EngineId) (a : AgentId) (m reply : Message) (cloud : Identity)
    (rest : List Hearer), f.Vacant → Course (quiet f) xs p →
    (∃ m, x = .dispatch c m) ∨ x = .take c → Step p x q → Course q ys s →
    s.deliveries[p.deliveries.length]? = some ⟨c, m, .responder a cloud :: rest⟩ →
    s.scene.fabric.answer? a cloud m = some (e, reply) → e = c := by
  intro hstays
  obtain ⟨xs, p, q, ys, s, hcourse, hstep, hlater, hdue, reply, hanswer⟩ := course_pair
  have hsame := hstays pair xs ys (.take 0) p q s 0 1 0 knock reply _ [] vacant_pair hcourse
    (.inr rfl) hstep hlater hdue hanswer
  contradiction

end Situation

end Overlay
