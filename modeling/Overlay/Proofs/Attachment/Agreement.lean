import Overlay.Proofs.Attachment.Commands

/-!
# Attachment and registration agree

When no join or leave is under way, nothing but attached agents keeps up registrations, so being
attached, being registered and having a responder come to the same (`Agrees`), and all of it follows
from the joins that came to their end and the leaves after them (`attachment`). Joins that are
refused or dropped do not count.
-/

namespace Overlay

/-- A stage in which a join may be that is refused or dropped in the end, or a call that is over. -/
def Stage.Fails : Stage → Prop
  | .entering _ _ | .refused _ _ | .waiting _ _ | .dropped _ _ | .over => True
  | .subscribed _ _ _ | .leaving _ _ _ | .departing _ _ => False

namespace Scene

variable {s s' : Scene} {a b : AgentId} {c e : EngineId} {i : Identity} {r : SubscriptionId}
  {p : Place} {t : Turn} {ts ts' : List Turn} {f : Fabric} {o : Option SubscriptionId}

/-! ## Runs -/

theorem orderly_of_vacant (hf : f.Vacant) : (⟨f, []⟩ : Scene).Orderly where
  engine := fun h => nomatch h
  joining := fun h => nomatch h
  joiner := fun {a e} h => by
    rw [standing, hf.standing] at h
    contradiction
  once := fun h => nomatch h

theorem tie?_of_vacant (hf : f.Vacant) : (⟨f, []⟩ : Scene).tie? p = none := by
  cases p with
  | call k => rfl
  | agent a => rw [tie?, standing, hf.standing]; rfl

theorem tidy_of_vacant (hf : f.Vacant) (c : EngineId) : (⟨f, []⟩ : Scene).Tidy c where
  registered := by
    intro i a
    simp [tie?_of_vacant hf, local?, hf.locals]
  single := fun h => by
    rw [tie?_of_vacant hf] at h
    contradiction
  responders := by
    intro r a
    simp [tie?_of_vacant hf, responders, hf.responders]
  nodup := by simp [responders, hf.responders]
  below := by simp [responders, hf.responders]

theorem Orderly.run (h : s.Orderly) (hrun : Run s ts s') : s'.Orderly := by
  induction hrun with
  | nil => exact h
  | cons _ hstep ih => exact ih.step hstep

theorem Tidy.run (h : s.Tidy c) (ho : s.Orderly) (hrun : Run s ts s')
    (hup : .shutdown c ∉ ts) : s'.Tidy c := by
  induction hrun with
  | nil => exact h
  | cons hrun hstep ih =>
    simp only [List.mem_cons, not_or] at hup
    exact (ih hup.2).step (ho.run hrun) hstep fun ht => hup.1 ht.symm

theorem identity_step (hstep : Step s t s') : s'.identity a = s.identity a := by
  cases hstep with
  | begin => exact identity_setStanding a
  | reset => exact identity_setStanding a
  | settle => exact identity_setStanding a
  | drop => exact identity_setStanding a
  | leave => exact identity_setStanding a
  | shutdown e => rw [identity, Fabric.member, Fabric.members_shutdown, identity, Fabric.member]
  | other haloof => exact haloof.identity a
  | _ => rfl

theorem identity_run (hrun : Run s ts s') : s'.identity a = s.identity a := by
  induction hrun with
  | nil => rfl
  | cons _ hstep ih => rw [identity_step hstep, ih]

/-! ## Who is attached -/

/-- The engine to which an agent is attached by the latest join of its that came to its end, unless
it has begun to leave since. -/
def attachment : List Turn → AgentId → Option EngineId
  | [], _ => none
  | .act .settle b e :: ts, a => if a = b then some e else attachment ts a
  | .act .leave b _ :: ts, a => if a = b then none else attachment ts a
  | _ :: ts, a => attachment ts a

/-- Only the end of a join attaches an agent, and only the beginning of a leave detaches one that is
attached. -/
theorem joined_step (ho : s.Orderly) (hstep : Step s t s') :
    (∃ e, t = .act .settle a e ∧ ∃ r, s'.standing a = .joined e r) ∨
      (∃ e, t = .act .leave a e ∧ s'.standing a = .detached) ∨
      (∀ e, t ≠ .act .settle a e) ∧ (∀ e, t ≠ .act .leave a e) ∧
        ∀ e r, s'.standing a = .joined e r ↔ s.standing a = .joined e r := by
  -- A turn that changes how another agent stands, or this one from and to other than joined.
  have hset : ∀ {b : AgentId} {x : Standing} {calls : List Stage}, b < s.fabric.members.length →
      (a = b → ∀ e r, x ≠ .joined e r ∧ s.standing b ≠ .joined e r) →
      ∀ e r, (⟨s.fabric.setStanding b x, calls⟩ : Scene).standing a = .joined e r ↔
        s.standing a = .joined e r := by
    intro b x calls hb hx e r
    rw [show (⟨s.fabric.setStanding b x, calls⟩ : Scene).standing a = _ from
      Fabric.standing_setStanding x hb]
    split
    · next hab => simp [hab, hx hab]
    · rfl
  have hjoins : ∀ {k b e}, (s.call k).joins? = some (b, e) →
      b < s.fabric.members.length ∧ ∀ d r, s.standing b ≠ .joined d r := by
    intro k b e hk
    have hstanding := ho.joining hk
    exact ⟨lt_of_standing (by rw [hstanding]; simp), by simp [hstanding]⟩
  cases hstep with
  | begin hb he hstanding => exact .inr (.inr ⟨by simp, by simp, hset hb (by simp [hstanding])⟩)
  | @reset k b e hcall =>
    have ⟨hb, hnot⟩ := hjoins (k := k) (b := b) (e := e) (by rw [hcall]; rfl)
    exact .inr (.inr ⟨by simp, by simp, hset hb fun _ e r => ⟨by simp, hnot e r⟩⟩)
  | @settle k b e r hcall =>
    have ⟨hb, hnot⟩ := hjoins (k := k) (b := b) (e := e) (by rw [hcall]; rfl)
    by_cases hab : a = b
    · subst hab
      exact .inl ⟨e, rfl, r, Fabric.standing_setStanding_self _ hb⟩
    · exact .inr (.inr ⟨by simp [Ne.symm hab], by simp, hset hb fun h => absurd h hab⟩)
  | @drop k b e hcall =>
    have ⟨hb, hnot⟩ := hjoins (k := k) (b := b) (e := e) (by rw [hcall]; rfl)
    exact .inr (.inr ⟨by simp, by simp, hset hb fun _ e r => ⟨by simp, hnot e r⟩⟩)
  | @leave b e r hstanding =>
    have hb : b < s.fabric.members.length := lt_of_standing (by rw [hstanding]; simp)
    by_cases hab : a = b
    · subst hab
      exact .inr (.inl ⟨e, rfl, Fabric.standing_setStanding_self _ hb⟩)
    · exact .inr (.inr ⟨by simp, by simp [Ne.symm hab], hset hb fun h => absurd h hab⟩)
  | shutdown e =>
    refine .inr (.inr ⟨by simp, by simp, fun e r => ?_⟩)
    rw [standing, Fabric.member, Fabric.members_shutdown, standing, Fabric.member]
  | other haloof => exact .inr (.inr ⟨by simp, by simp, fun e r => by
      rw [standing, haloof.standing, standing]⟩)
  | _ => exact .inr (.inr ⟨by simp, by simp, fun _ _ => .rfl⟩)

theorem joined_iff_attachment (hf : f.Vacant) (hrun : Run ⟨f, []⟩ ts s) :
    (∃ r, s.standing a = .joined e r) ↔ attachment ts a = some e := by
  induction hrun generalizing e with
  | nil => simp [standing, hf.standing, attachment]
  | @cons s s' t ts hrun hstep ih =>
    obtain ⟨d, rfl, r, hr⟩ | ⟨d, rfl, hd⟩ | ⟨hsettle, hleave, hsame⟩ :=
      joined_step (a := a) ((orderly_of_vacant hf).run hrun) hstep
    · simp [hr, attachment]
    · simp [hd, attachment]
    · simp only [hsame, ih]
      cases t with
      | act act b d =>
        cases act with
        | settle => simp [attachment, show a ≠ b from fun hab => hsettle d (hab ▸ rfl)]
        | leave => simp [attachment, show a ≠ b from fun hab => hleave d (hab ▸ rfl)]
        | _ => rfl
      | _ => rfl

/-! ## At rest -/

/-- At rest only attached agents keep up registrations. -/
theorem AtRest.tie?_iff (hrest : s.AtRest) :
    s.tie? p = some ⟨a, c, o⟩ ↔ p = .agent a ∧ ∃ r, o = some r ∧ s.standing a = .joined c r := by
  cases p with
  | call k => simp [tie?, hrest k, Stage.tie?]
  | agent b =>
    simp only [tie?, Place.agent.injEq]
    cases hb : s.standing b with
    | joined e r =>
      simp only [Standing.tie?, Option.some.injEq, Tie.mk.injEq]
      constructor
      · rintro ⟨rfl, rfl, rfl⟩
        exact ⟨rfl, r, rfl, hb⟩
      · rintro ⟨rfl, r', rfl, hr⟩
        rw [hb] at hr
        cases hr
        exact ⟨rfl, rfl, rfl⟩
    | _ =>
      simp only [Standing.tie?, reduceCtorEq, false_iff, not_and]
      rintro rfl ⟨r, -, hr⟩
      rw [hb] at hr
      contradiction

theorem AtRest.registered_iff (hrest : s.AtRest) (h : s.Tidy c) :
    s.local? c i = some a ↔ s.identity a = i ∧ ∃ r, s.standing a = .joined c r := by
  rw [h.registered]
  refine and_congr_right fun _ => ?_
  simp only [hrest.tie?_iff]
  constructor
  · rintro ⟨p, o, -, r, -, hr⟩
    exact ⟨r, hr⟩
  · rintro ⟨r, hr⟩
    exact ⟨.agent a, some r, rfl, r, rfl, hr⟩

theorem AtRest.responder_iff (hrest : s.AtRest) (h : s.Tidy c) :
    (r, a) ∈ s.responders c ↔ s.standing a = .joined c r := by
  simp [h.responders, hrest.tie?_iff]

/-- At rest nobody is joining. -/
theorem AtRest.standing_cases (hrest : s.AtRest) (ho : s.Orderly) (a : AgentId) :
    s.standing a = .detached ∨ ∃ e r, s.standing a = .joined e r := by
  cases ha : s.standing a with
  | detached => exact .inl rfl
  | joining e =>
    obtain ⟨k, hk⟩ := ho.joiner ha
    rw [hrest k] at hk
    contradiction
  | joined e r => exact .inr ⟨e, r, rfl⟩

theorem AtRest.engine?_iff (hrest : s.AtRest) (ho : s.Orderly) :
    (s.standing a).engine? = some c ↔ ∃ r, s.standing a = .joined c r := by
  obtain ha | ⟨e, r, ha⟩ := hrest.standing_cases ho a <;> simp [ha, Standing.engine?]

/-- No agent has two responders at an engine. -/
theorem AtRest.nodup_responders (hrest : s.AtRest) (h : s.Tidy c) :
    ((s.responders c).map Prod.snd).Nodup := by
  have hnumbers : (s.responders c).Pairwise fun x y => x.1 ≠ y.1 := List.pairwise_map.1 h.nodup
  refine List.pairwise_map.2 (hnumbers.imp_of_mem fun {x y} hx hy hne hxy => hne ?_)
  have hx := (hrest.responder_iff h).1 hx
  have hy := (hrest.responder_iff h).1 hy
  rw [hxy, hy] at hx
  exact (Standing.joined.inj hx).2.symm

/-- What comes to the same when no join or leave is under way, after some turns. -/
structure Agrees (ts : List Turn) (s : Scene) : Prop where
  /-- The registered agents of an engine are those that are attached to it. -/
  registered : ∀ a c, s.local? c (s.identity a) = some a ↔ ∃ r, s.standing a = .joined c r
  /-- An agent is registered under its own identity only. -/
  identity : ∀ {c i a}, s.local? c i = some a → s.identity a = i
  /-- An agent knows the engine to which it is attached, and no other one. -/
  cloud : ∀ a c, (s.standing a).engine? = some c ↔ ∃ r, s.standing a = .joined c r
  /-- No two agents of one identity are attached to an engine. -/
  twins : ∀ {a b c}, (s.standing a).engine? = some c → (s.standing b).engine? = some c →
    s.identity a = s.identity b → a = b
  /-- An engine has one responder for each agent that is attached to it. -/
  responders : ∀ c, (s.responders c).length =
    ((List.range s.fabric.members.length).filter fun a => (s.standing a).engine? = some c).length
  /-- What matters is which joins have come to their end, and which leaves have begun after them. -/
  completed : ∀ a, (s.standing a).engine? = attachment ts a

theorem AtRest.agrees (hrest : s.AtRest) (hf : f.Vacant) (hrun : Run ⟨f, []⟩ ts s)
    (hup : ∀ c, .shutdown c ∉ ts) : s.Agrees ts := by
  have ho := (orderly_of_vacant hf).run hrun
  have htidy := fun c => (tidy_of_vacant hf c).run (orderly_of_vacant hf) hrun (hup c)
  constructor
  case registered =>
    intro a c
    rw [hrest.registered_iff (htidy c)]
    exact and_iff_right rfl
  case identity => exact fun h => ((hrest.registered_iff (htidy _)).1 h).1
  case cloud => exact fun a c => hrest.engine?_iff ho
  case twins =>
    intro a b c ha hb hab
    have ha := (hrest.registered_iff (htidy c)).2 ⟨rfl, (hrest.engine?_iff ho).1 ha⟩
    have hb := (hrest.registered_iff (htidy c)).2 ⟨rfl, (hrest.engine?_iff ho).1 hb⟩
    rw [hab, hb] at ha
    exact (Option.some.inj ha).symm
  case responders =>
    intro c
    rw [← List.length_map (f := Prod.snd)]
    apply List.Perm.length_eq
    refine (List.perm_ext_iff_of_nodup (hrest.nodup_responders (htidy c))
      (List.nodup_range.sublist List.filter_sublist)).2 fun a => ?_
    rw [List.mem_filter, List.mem_range, decide_eq_true_eq, hrest.engine?_iff ho]
    constructor
    · intro ha
      obtain ⟨⟨r, b⟩, hr, rfl⟩ := List.mem_map.1 ha
      have hr := (hrest.responder_iff (htidy c)).1 hr
      exact ⟨lt_of_standing (by rw [hr]; simp), r, hr⟩
    · rintro ⟨-, r, hr⟩
      exact List.mem_map.2 ⟨(r, a), (hrest.responder_iff (htidy c)).2 hr, rfl⟩
  case completed =>
    intro a
    refine Option.ext fun e => ?_
    rw [hrest.engine?_iff ho, joined_iff_attachment hf hrun]

/-! ## Joins that are refused or dropped -/

/-- What is as it was before some turns. -/
structure Unmoved (ts : List Turn) (s s' : Scene) : Prop where
  standing : ∀ a, s'.standing a = s.standing a
  local? : ∀ c i, s'.local? c i = s.local? c i
  responders : ∀ c x, x ∈ s'.responders c ↔ x ∈ s.responders c
  /-- If nothing went on but calls, all listeners are the same. -/
  fanout : .other ∉ ts → ∀ c, (s'.fabric.engine c).fanout = (s.fabric.engine c).fanout

theorem joined_run (ho : s.Orderly) (hrun : Run s ts s')
    (hnone : ∀ a c, .act .settle a c ∉ ts ∧ .act .leave a c ∉ ts) :
    s'.standing a = .joined e r ↔ s.standing a = .joined e r := by
  induction hrun with
  | nil => rfl
  | cons hrun hstep ih =>
    have hrest := ih fun a c =>
      ⟨fun h => (hnone a c).1 (List.mem_cons_of_mem _ h),
        fun h => (hnone a c).2 (List.mem_cons_of_mem _ h)⟩
    obtain ⟨d, rfl, -⟩ | ⟨d, rfl, -⟩ | ⟨-, -, hsame⟩ := joined_step (a := a) (ho.run hrun) hstep
    · exact absurd List.mem_cons_self (hnone a d).1
    · exact absurd List.mem_cons_self (hnone a d).2
    · exact (hsame e r).trans hrest

/-- A join whose responder is subscribed stays where it is until it settles. -/
theorem subscribed_step {k : Nat} (hk : s.call k = .subscribed a e r) (hstep : Step s t s')
    (ht : ∀ a e, t ≠ .act .settle a e) : s'.call k = .subscribed a e r := by
  have hmove : ∀ {j stage f x}, s.call j = x → x ≠ .over → (∀ a e r, x ≠ .subscribed a e r) →
      (s.move j stage f).call k = .subscribed a e r := by
    intro j stage f x hj hover hx
    rw [call_move (hj ▸ hover), if_neg, hk]
    rintro rfl
    exact hx a e r (hj.symm.trans hk)
  have henter : ∀ {stage f}, (s.enter stage f).call k = .subscribed a e r := by
    intro stage f
    rw [call_enter, if_neg, hk]
    rintro rfl
    rw [call_length] at hk
    contradiction
  cases hstep with
  | begin => exact henter
  | leave => exact henter
  | @settle j b d => exact absurd rfl (ht b d)
  | shutdown => exact hk
  | other => exact hk
  | register hcall => exact hmove hcall (by simp) (by simp)
  | refuse hcall => exact hmove hcall (by simp) (by simp)
  | reset hcall => exact hmove hcall (by simp) (by simp)
  | subscribe hcall => exact hmove hcall (by simp) (by simp)
  | drop hcall => exact hmove hcall (by simp) (by simp)
  | abandon hcall => exact hmove hcall (by simp) (by simp)
  | unsubscribe hcall => exact hmove hcall (by simp) (by simp)
  | unregister hcall => exact hmove hcall (by simp) (by simp)

/-- While joins are refused and dropped only, no call touches the listeners. -/
theorem fanout_step (hcalls : ∀ k, (s.call k).Fails) (hstep : Step s t s')
    (hsettle : ∀ a e, t ≠ .act .settle a e) (hleave : ∀ a e, t ≠ .act .leave a e)
    (hup : ∀ e, t ≠ .shutdown e) :
    ((∀ k, (s'.call k).Fails) ∧
      (t ≠ .other → ∀ c, (s'.fabric.engine c).fanout = (s.fabric.engine c).fanout)) ∨
    ∃ k a e r, s'.call k = .subscribed a e r := by
  have hmove : ∀ {k stage f x}, s.call k = x → x ≠ .over → stage.Fails →
      ∀ j, ((s.move k stage f).call j).Fails := by
    intro k stage f x hk hover hstage j
    rw [call_move (hk ▸ hover)]
    split
    · exact hstage
    · exact hcalls j
  cases hstep with
  | begin =>
    refine .inl ⟨fun j => ?_, fun _ _ => rfl⟩
    rw [call_enter]
    split
    · trivial
    · exact hcalls j
  | register hcall =>
    exact .inl ⟨hmove hcall (by simp) trivial, fun _ c => Fabric.fanout_setDirectory _⟩
  | refuse hcall => exact .inl ⟨hmove hcall (by simp) trivial, fun _ _ => rfl⟩
  | reset hcall => exact .inl ⟨hmove hcall (by simp) trivial, fun _ _ => rfl⟩
  | @subscribe k a e hcall =>
    exact .inr ⟨k, a, e, _, by rw [call_move (by simp [hcall]), if_pos rfl]⟩
  | @settle k a e => exact absurd rfl (hsettle a e)
  | drop hcall => exact .inl ⟨hmove hcall (by simp) trivial, fun _ _ => rfl⟩
  | abandon hcall =>
    exact .inl ⟨hmove hcall (by simp) trivial, fun _ c => Fabric.fanout_setDirectory _⟩
  | @leave a e => exact absurd rfl (hleave a e)
  | @unsubscribe k a e r hcall => exact absurd (hcalls k) (by rw [hcall]; exact id)
  | @unregister k a e hcall => exact absurd (hcalls k) (by rw [hcall]; exact id)
  | shutdown e => exact absurd rfl (hup e)
  | other => exact .inl ⟨hcalls, fun h => absurd rfl h⟩

/-- In a run of joins that are refused and dropped no call touches the listeners, or one of them has
gone too far for that. -/
theorem fanout_run (hrest : s.AtRest) (hrun : Run s ts s') (hup : ∀ c, .shutdown c ∉ ts)
    (hnone : ∀ a c, .act .settle a c ∉ ts ∧ .act .leave a c ∉ ts) :
    ((∀ k, (s'.call k).Fails) ∧
      (.other ∉ ts → ∀ c, (s'.fabric.engine c).fanout = (s.fabric.engine c).fanout)) ∨
    ∃ k a e r, s'.call k = .subscribed a e r := by
  induction hrun with
  | nil => exact .inl ⟨fun k => by rw [hrest k]; trivial, fun _ _ => rfl⟩
  | cons hrun hstep ih =>
    simp only [List.mem_cons, not_or] at hup hnone
    rcases ih (fun c => (hup c).2) fun a c => ⟨(hnone a c).1.2, (hnone a c).2.2⟩ with
      ⟨hcalls, hfanout⟩ | ⟨k, a, e, r, hk⟩
    · rcases fanout_step hcalls hstep (fun a c h => (hnone a c).1.1 h.symm)
        (fun a c h => (hnone a c).2.1 h.symm) (fun c h => (hup c).1 h.symm) with
        ⟨hcalls', hsame⟩ | hk
      · refine .inl ⟨hcalls', fun hother c => ?_⟩
        simp only [List.mem_cons, not_or] at hother
        rw [hsame (fun h => hother.1 h.symm), hfanout hother.2]
      · exact .inr hk
    · exact .inr ⟨k, a, e, r, subscribed_step hk hstep fun a c h => (hnone a c).1.1 h.symm⟩

theorem AtRest.unmoved (hrest : s.AtRest) (hrest' : s'.AtRest) (ho : s.Orderly)
    (h : ∀ c, s.Tidy c) (hrun : Run s ts s') (hup : ∀ c, .shutdown c ∉ ts)
    (hnone : ∀ a c, .act .settle a c ∉ ts ∧ .act .leave a c ∉ ts) : Unmoved ts s s' := by
  have hjoined : ∀ a e r, s'.standing a = .joined e r ↔ s.standing a = .joined e r :=
    fun a e r => joined_run ho hrun hnone
  have htidy : ∀ c, s'.Tidy c := fun c => (h c).run ho hrun (hup c)
  constructor
  case standing =>
    intro a
    obtain ha | ⟨e, r, ha⟩ := hrest.standing_cases ho a
    · obtain ha' | ⟨e, r, ha'⟩ := hrest'.standing_cases (ho.run hrun) a
      · rw [ha, ha']
      · rw [(hjoined a e r).1 ha'] at ha
        contradiction
    · rw [ha, (hjoined a e r).2 ha]
  case local? =>
    intro c i
    refine Option.ext fun a => ?_
    simp only [hrest'.registered_iff (htidy c), hrest.registered_iff (h c), hjoined,
      identity_run hrun]
  case responders =>
    intro c x
    rw [hrest'.responder_iff (htidy c), hrest.responder_iff (h c), hjoined]
  case fanout =>
    rcases fanout_run hrest hrun hup hnone with ⟨-, hfanout⟩ | ⟨k, a, e, r, hk⟩
    · exact hfanout
    · rw [hrest' k] at hk
      contradiction

/-! ## Twins -/

/-- An engine and two agents of one identity, as they are built. -/
def twins : Fabric :=
  let f := (Fabric.empty 0).addEngine (.cloud default) .standard [] 0 0
  (f.addAgent ⟨.agent default, .empty⟩).addAgent ⟨.agent default, .empty⟩

theorem vacant_twins : twins.Vacant :=
  ((Fabric.Vacant.empty 0).addEngine.addAgent ⟨.agent default, .empty⟩).addAgent
    ⟨.agent default, .empty⟩

def firstJoins : List Turn :=
  [.act .settle 0 0, .act .subscribe 0 0, .act .register 0 0, .act .begin 0 0]

def firstJoined : Fabric :=
  match twins.enroll 0 0 with
  | .ok f => f.attach 0 0
  | .error _ => twins

theorem run_firstJoins : Run ⟨twins, []⟩ firstJoins ⟨firstJoined, [.over]⟩ :=
  (run_enroll (s := ⟨twins, []⟩) (by decide) (by decide) rfl).append (run_attach (k := 0) rfl)

def secondFails : List Turn :=
  [.act .reset 1 0, .act .refuse 1 0, .act .begin 1 0]

/-! ## What every run comes to -/

/-- **Attachment and registration agree.** Let calls of any number of agents be interleaved in any
way, with anything in between that is no shutdown. Whenever no join or leave is under way, who is
attached, who is registered and who has a responder come to the same, and only those joins count
that have come to their end. Joins that are all refused or dropped after that leave nothing behind.
-/
theorem attachments_agree (hf : f.Vacant) (hrun : Run ⟨f, []⟩ ts s) (hup : ∀ c, .shutdown c ∉ ts)
    (hrest : s.AtRest) :
    s.Agrees ts ∧ ∀ ts' s', Run s ts' s' → (∀ c, .shutdown c ∉ ts') → s'.AtRest →
      (∀ a c, .act .settle a c ∉ ts' ∧ .act .leave a c ∉ ts') → Unmoved ts' s s' := by
  have ho := (orderly_of_vacant hf).run hrun
  have htidy := fun c => (tidy_of_vacant hf c).run (orderly_of_vacant hf) hrun (hup c)
  exact ⟨hrest.agrees hf hrun hup, fun ts' s' hrun' hup' hrest' hnone =>
    hrest.unmoved hrest' ho htidy hrun' hup' hnone⟩

theorem attachments_agree_twins : (⟨firstJoined, [.over]⟩ : Scene).Agrees firstJoins ∧
    ∃ s, Run ⟨firstJoined, [.over]⟩ secondFails s ∧
      Unmoved secondFails ⟨firstJoined, [.over]⟩ s := by
  have hrest : ∀ k, (⟨firstJoined, List.replicate k .over⟩ : Scene).AtRest := by
    intro k j
    simp only [call, List.getD, List.getElem?_replicate]
    split <;> rfl
  have hagree := attachments_agree vacant_twins run_firstJoins (by simp [firstJoins]) (hrest 1)
  have hfail : Run ⟨firstJoined, [.over]⟩ secondFails _ :=
    run_refused (by decide) (by decide) rfl rfl
  exact ⟨hagree.1, _, hfail,
    hagree.2 _ _ hfail (by simp [secondFails]) (hrest 2) (by simp [secondFails])⟩

end Scene

end Overlay
