import Overlay.Proofs.Attachment.Situations

/-!
# Leaves that are dropped

Whoever makes a call may drop it where it waits. A join that is dropped makes good what it has done.
A leave does not: it waits while its departure is announced, which a gateway may delay, and if it is
dropped then, nobody removes the registration. Its agent is attached no longer and stays registered,
so the engine refuses everybody of that identity from then on (`Scene.Stranded`), and only a
shutdown ends that.
-/

namespace Overlay

namespace Fabric

variable {f g : Fabric} {a : AgentId} {e : EngineId} {gateways : List GatewayId}

def announceThrough (f : Fabric) (a : AgentId) (e : EngineId)
    (gateways : List GatewayId) : Fabric :=
  let (uuid, f) := f.fresh
  (f.transmitAll receive (.absence uuid (f.member a).agent.identity (f.engine e).identity)
    gateways).1

/-- A leave that is dropped when its departure has been announced through some gateways. -/
def dropLeave (f : Fabric) (a : AgentId) (gateways : List GatewayId) : Except Refusal Fabric := do
  let (f, e) ← f.detach a
  return f.announceThrough a e gateways

/-- A leave that is not dropped goes on until it has announced itself through all of them. -/
theorem announceThrough_all :
    f.announceThrough a e (f.engine e).gateways = f.announceDeparture a e := rfl

theorem aloof_announceThrough (f : Fabric) (a : AgentId) (e : EngineId)
    (gateways : List GatewayId) : f.Aloof (f.announceThrough a e gateways) :=
  (Aloof.aside aside_fresh).trans (Aloof.closed.transmitAll Aloof.receive trivial gateways)

theorem dropLeave_eq_ok (hg : f.dropLeave a gateways = .ok g) :
    ∃ v e, f.detach a = .ok (v, e) ∧ g = v.announceThrough a e gateways := by
  unfold dropLeave at hg
  cases hv : f.detach a with
  | error refusal =>
    rw [hv] at hg
    contradiction
  | ok v =>
    rw [hv] at hg
    exact ⟨v.1, v.2, rfl, (Except.ok.inj hg).symm⟩

end Fabric

/-! ## While a leave announces itself -/

namespace Scene

variable {s s' : Scene} {k : Nat} {a b : AgentId} {e : EngineId} {t : Turn}

/-- An agent is registered, and nobody of its identity is attached. -/
structure Stranded (s : Scene) (a : AgentId) (e : EngineId) : Prop where
  registered : s.local? e (s.identity a) = some a
  detached : ∀ b r, s.identity b = s.identity a → s.standing b ≠ .joined e r

/-- The engine refuses everybody of the identity. -/
theorem Stranded.enroll (h : s.Stranded a e) (hidentity : s.identity b = s.identity a)
    (hstanding : s.standing b = .detached) :
    s.fabric.enroll b e =
      .error (.alreadyRegistered (s.identity a) (s.fabric.engine e).identity) := by
  have hinsert : (s.fabric.engine e).directory.insertLocal? (s.identity a) b = none := by
    rw [Option.eq_none_iff_forall_ne_some]
    intro D hD
    have hfree : s.local? e (s.identity a) = none := (Directory.insertLocal?_eq_some hD).1
    rw [h.registered] at hfree
    contradiction
  have hstanding : (s.fabric.member b).standing = .detached := hstanding
  have hidentity : (s.fabric.member b).agent.identity = s.identity a := hidentity
  simp only [Fabric.enroll, hstanding, hidentity, hinsert]

theorem Tidy.stranded (h : s.Tidy e) (hcall : s.call k = .departing a e) : s.Stranded a e := by
  have hk : s.tie? (.call k) = some ⟨a, e, none⟩ := by
    rw [tie?_call, hcall]
    rfl
  refine ⟨h.local? hk, fun b r hidentity hjoined => ?_⟩
  have hb : s.tie? (.agent b) = some ⟨b, e, some r⟩ := by
    rw [tie?, hjoined]
    rfl
  -- Both would be registered under the identity, so they are the same agent in two places.
  have hlocal := h.local? hb
  rw [hidentity, h.local? hk] at hlocal
  obtain rfl := Option.some.inj hlocal
  exact absurd (h.single hk hb) (by simp)

/-- A leave that announces itself gets on to its end, and to nothing else. -/
theorem departing_step (hk : s.call k = .departing a e) (hstep : Step s t s') :
    s'.call k = .departing a e ∨
      s'.call k = .over ∧ s' = s.move k .over (s.fabric.unregister a e) := by
  have hmove : ∀ {j stage f x}, s.call j = x → x ≠ .over → (∀ a e, x ≠ .departing a e) →
      (s.move j stage f).call k = .departing a e := by
    intro j stage f x hj hover hx
    rw [call_move (hj ▸ hover), if_neg, hk]
    rintro rfl
    exact hx a e (hj.symm.trans hk)
  have henter : ∀ {stage f}, (s.enter stage f).call k = .departing a e := by
    intro stage f
    rw [call_enter, if_neg, hk]
    rintro rfl
    rw [call_length] at hk
    contradiction
  cases hstep with
  | begin => exact .inl henter
  | leave => exact .inl henter
  | shutdown => exact .inl hk
  | other => exact .inl hk
  | @unregister j b d hcall =>
    by_cases hj : k = j
    · subst hj
      obtain ⟨rfl, rfl⟩ := Stage.departing.inj (hk.symm.trans hcall)
      exact .inr ⟨by rw [call_move (by simp [hcall]), if_pos rfl], rfl⟩
    · exact .inl (by rw [call_move (by simp [hcall]), if_neg hj, hk])
  | register hcall => exact .inl (hmove hcall (by simp) (by simp))
  | refuse hcall => exact .inl (hmove hcall (by simp) (by simp))
  | reset hcall => exact .inl (hmove hcall (by simp) (by simp))
  | subscribe hcall => exact .inl (hmove hcall (by simp) (by simp))
  | settle hcall => exact .inl (hmove hcall (by simp) (by simp))
  | drop hcall => exact .inl (hmove hcall (by simp) (by simp))
  | abandon hcall => exact .inl (hmove hcall (by simp) (by simp))
  | unsubscribe hcall => exact .inl (hmove hcall (by simp) (by simp))

end Scene

/-! ## Dropping leaves -/

namespace Situation

variable {p q : Situation} {x : Happening} {xs : List Happening} {k : Nat} {a : AgentId}
  {e : EngineId} {f g : Fabric} {s s' : Scene} {t : Turn} {ts : List Turn}

/-- After a run, a leave is begun and dropped. -/
theorem course_dropLeave {calls : List Stage} {gateways : List GatewayId} {r : SubscriptionId}
    (hrun : s.Run ts ⟨f, calls⟩) (hstanding : (f.member a).standing = .joined e r)
    (hg : f.dropLeave a gateways = .ok g) : ∃ p,
      Course ⟨s, [], []⟩ ((.other :: .act .unsubscribe a e :: .act .leave a e :: ts).map .turn) p ∧
      p.scene.call calls.length = .departing a e ∧
      Step p (.drop calls.length) ⟨⟨g, calls ++ [.departing a e]⟩, [calls.length], []⟩ := by
  obtain ⟨v, d, hv, rfl⟩ := Fabric.dropLeave_eq_ok hg
  obtain ⟨q, hjoined, rfl⟩ := Fabric.detach_eq_ok hv
  obtain ⟨rfl, rfl⟩ := Standing.joined.inj (hstanding.symm.trans hjoined)
  have hleave : Scene.Step ⟨f, calls⟩ (.act .leave a e) _ := .leave hstanding
  have hunsubscribe := Scene.Step.unsubscribe (k := calls.length) (a := a) (e := e) (r := r)
    (s := ⟨f.setStanding a .detached, calls ++ [.leaving a e r]⟩) (Scene.call_append _)
  have hcalls : ∀ x y : Stage, (calls ++ [x]).set calls.length y = calls ++ [y] := by simp
  simp only [Scene.move, hcalls] at hunsubscribe
  have hrun := ((hrun.cons hleave).cons hunsubscribe).cons
    (.other (Fabric.aloof_announceThrough _ a e gateways))
  exact ⟨_, course_of_run hrun [], Scene.call_append _, .drop (Scene.call_append _)⟩

/-- The end of a leave removes the registration. -/
theorem local?_unregister (h : s.Stranded a e) :
    (s.move k .over (s.fabric.unregister a e)).local? e (s.identity a) = none := by
  rw [Fabric.unregister, Scene.local?_setDirectory (Fabric.lt_of_local? h.registered),
    Directory.local?_removeLocal]
  exact if_pos rfl

/-- A leave that is announcing itself is still doing so after a step, or it has come to its end and
was not dropped. -/
theorem departing_cases (hcall : p.scene.call k = .departing a e) (hstep : Step p x q) :
    q.scene.call k = .departing a e ∨ q.scene.call k = .over ∧ k ∉ q.dropped ∧
      q.scene = p.scene.move k .over (p.scene.fabric.unregister a e) := by
  cases hstep with
  | turn hstep hstill =>
    refine (Scene.departing_step hcall hstep).imp_right fun ⟨hover, hscene⟩ => ?_
    refine ⟨hover, fun hk => ?_, hscene⟩
    have hsame := hstill k hk
    rw [hcall, hover] at hsame
    contradiction
  | _ => exact .inl hcall

/-- **A leave that is dropped strands its agent.** Let calls of any number of agents be interleaved
in any way, leaves be dropped, and anything else happen that does not shut the engine down. When a
leave ends, its agent is not attached to the engine. If the leave has come to its end, the agent is
not registered either. If the leave was dropped, the agent still is, for as long as the engine is
not shut down, and the engine refuses everybody of its identity. -/
theorem registered_iff_leave_dropped (hf : f.Vacant) (hcourse : Course (quiet f) xs p)
    (hcall : p.scene.call k = .departing a e) (hstep : Step p x q)
    (hup : .turn (.shutdown e) ∉ x :: xs) (hend : q.scene.call k = .over ∨ k ∈ q.dropped) :
    (∀ r, q.scene.standing a ≠ .joined e r) ∧
    q.scene.local? e (q.scene.identity a) = (if k ∈ q.dropped then some a else none) ∧
    (k ∈ q.dropped → ∀ ys q', Course q ys q' → .turn (.shutdown e) ∉ ys →
      q'.scene.local? e (q'.scene.identity a) = some a ∧
      ∀ b, q'.scene.identity b = q'.scene.identity a →
        (∀ r, q'.scene.standing b ≠ .joined e r) ∧
        (q'.scene.standing b = .detached → q'.scene.fabric.enroll b e =
          .error (.alreadyRegistered (q'.scene.identity a)
            (q'.scene.fabric.engine e).identity))) := by
  have horderly : ∀ {ys q'}, Course (quiet f) ys q' → q'.scene.Orderly := fun hcourse =>
    (Scene.orderly_of_vacant hf).run hcourse.run
  have htidy : ∀ {ys q'}, Course (quiet f) ys q' → .turn (.shutdown e) ∉ ys →
      q'.scene.Tidy e := fun hcourse hup =>
    (Scene.tidy_of_vacant hf e).run (Scene.orderly_of_vacant hf) hcourse.run fun h =>
      hup ((mem_turns (by simp)).1 h)
  rcases departing_cases hcall hstep with hdeparting | ⟨-, hk, hscene⟩
  · have hk : k ∈ q.dropped := hend.resolve_left (by simp [hdeparting])
    have hq := htidy (hcourse.cons hstep) hup
    have hstranded := hq.stranded hdeparting
    refine ⟨fun r => hstranded.detached a r rfl, ?_, fun _ ys q' hys hup' => ?_⟩
    · rw [if_pos hk]
      exact hstranded.registered
    · have hq' := hq.run (horderly (hcourse.cons hstep)) hys.run fun h =>
        hup' ((mem_turns (by simp)).1 h)
      have hstranded' := hq'.stranded ((hys.still hk).2.trans hdeparting)
      exact ⟨hstranded'.registered, fun b hb =>
        ⟨fun r => hstranded'.detached b r hb, hstranded'.enroll hb⟩⟩
  · have hstranded := (htidy hcourse fun h => hup (List.mem_cons_of_mem _ h)).stranded hcall
    refine ⟨fun r => ?_, ?_, fun h => absurd h hk⟩
    · rw [hscene]
      exact hstranded.detached a r rfl
    · rw [if_neg hk, hscene]
      exact local?_unregister hstranded

/-- The first of the twins joins, and begins to leave. -/
def firstLeaves : List Happening :=
  (.other :: .act .unsubscribe 0 0 :: .act .leave 0 0 :: Scene.firstJoins).map .turn

/-- Its leave is dropped. -/
theorem course_firstLeaves : ∃ p q, Course (quiet Scene.twins) firstLeaves p ∧
    p.scene.call 1 = .departing 0 0 ∧ Step p (.drop 1) q ∧ 1 ∈ q.dropped ∧
    q.scene.standing 0 = .detached ∧ q.scene.standing 1 = .detached ∧
    q.scene.identity 1 = q.scene.identity 0 ∧
    q.scene.local? 0 (q.scene.identity 0) = some 0 := by
  obtain ⟨p, hcourse, hcall, hdrop⟩ := course_dropLeave Scene.run_firstJoins rfl
    (show Scene.firstJoined.dropLeave 0 [] = .ok _ from rfl)
  exact ⟨p, _, hcourse, hcall, hdrop, List.mem_cons_self, rfl, rfl, rfl, rfl⟩

theorem registered_iff_leave_dropped_twins : ∃ p q, Course (quiet Scene.twins) firstLeaves p ∧
    Step p (.drop 1) q ∧ q.scene.local? 0 (q.scene.identity 0) = some 0 ∧
    q.scene.fabric.enroll 1 0 =
      .error (.alreadyRegistered (q.scene.identity 0) (q.scene.fabric.engine 0).identity) := by
  obtain ⟨p, q, hcourse, hcall, hdrop, hk, -, hdetached, hidentity, -⟩ := course_firstLeaves
  obtain ⟨-, hlocal, hlater⟩ := registered_iff_leave_dropped Scene.vacant_twins hcourse hcall hdrop
    (by simp [firstLeaves, Scene.firstJoins]) (.inr hk)
  rw [if_pos hk] at hlocal
  exact ⟨p, q, hcourse, hdrop, hlocal,
    ((hlater hk [] q .nil (by simp)).2 1 hidentity).2 hdetached⟩

/-- A leave is not safe to drop: its agent may be registered and not attached. -/
theorem not_leave_safe_to_drop : ¬∀ (f : Fabric) (xs : List Happening) (p q : Situation) (k : Nat)
    (a : AgentId) (e : EngineId), f.Vacant → Course (quiet f) xs p →
    p.scene.call k = .departing a e → Step p (.drop k) q →
    (∃ r, q.scene.standing a = .joined e r) ∧
        q.scene.local? e (q.scene.identity a) = some a ∨
      q.scene.standing a = .detached ∧ q.scene.local? e (q.scene.identity a) = none := by
  intro hsafe
  obtain ⟨p, q, hcourse, hcall, hdrop, -, hdetached, -, -, hlocal⟩ := course_firstLeaves
  rcases hsafe _ _ p q 1 0 0 Scene.vacant_twins hcourse hcall hdrop with ⟨⟨r, hr⟩, -⟩ | ⟨-, hnone⟩
  · rw [hdetached] at hr
    contradiction
  · rw [hlocal] at hnone
    contradiction

end Situation

end Overlay
