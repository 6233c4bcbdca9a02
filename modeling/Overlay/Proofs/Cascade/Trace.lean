import Overlay.Proofs.Seclusion.Basic

/-!
# What is seen of traffic

Whoever watches a cascade may note something whenever an errand begins, by what the errand is and
by the fabric at that moment. A trace is all that was noted, the earliest first (`Fabric.Trace`).
What an errand comes down to is done before the next one begins, so in a trace all that is due to an
errand stands together.

An errand knows the messages in whose handling it came up, and whatever it comes down to knows them
too (`Errand.ComesTo.causes`). By that what was noted of a message itself is told from what was noted of
the messages that were sent because of it (`direct`).
-/

namespace Overlay

/-- Something that was noted of an errand, and the messages in whose handling the errand came up. -/
structure Note (α : Type) where
  what : α
  causes : List Message

/-- What was noted of errands that had come up in the handling of no message. -/
def direct {α : Type} (notes : List (Note α)) : List α :=
  (notes.filter (·.causes.isEmpty)).map Note.what

/-- What an errand may come down to. What is sent then has the message that is being handled for its
first cause; everything else has the causes of the errand. -/
inductive Errand.ComesTo : Errand → Errand → Prop
  | hand {e : EngineId} {x : GatewayId} (m : Message) (causes : List Message) :
      ComesTo ⟨.send e m, causes⟩ ⟨.hand x m, causes⟩
  | receive {x : GatewayId} {e : EngineId} (m n : Message) (causes : List Message) :
      ComesTo ⟨.hand x m, causes⟩ ⟨.receive e n, causes⟩
  | process {e : EngineId} (m : Message) (causes : List Message) :
      ComesTo ⟨.receive e m, causes⟩ ⟨.process e m, causes⟩
  | call {e : EngineId} {l : Hearer} (m : Message) (causes : List Message) :
      ComesTo ⟨.process e m, causes⟩ ⟨.call l m, causes⟩
  | enquire {e : EngineId} {r : Message} (m : Message) (causes : List Message) :
      ComesTo ⟨.process e m, causes⟩ ⟨.send e r, m :: causes⟩
  | touch {e : EngineId} {now : Nat} (m : Message) (causes : List Message) :
      ComesTo ⟨.process e m, causes⟩ ⟨.touch e m.sender now, causes⟩
  | answer {a : AgentId} {cloud : Identity} {e : EngineId} {r : Message} (m : Message)
      (causes : List Message) :
      ComesTo ⟨.call (.responder a cloud) m, causes⟩ ⟨.send e r, m :: causes⟩

/-- No cause is forgotten. -/
theorem Errand.ComesTo.causes {t u : Errand} (h : t.ComesTo u) : t.causes <:+ u.causes := by
  cases h with
  | enquire m causes => exact List.suffix_cons m causes
  | answer m causes => exact List.suffix_cons m causes
  | _ => exact List.suffix_refl _

namespace Fabric

def notes {α : Type} (see : Fabric → Errand → List α) (f : Fabric) (t : Errand) : List (Note α) :=
  (see f t).map fun x => ⟨x, t.causes⟩

/-- Errands take one fabric to another one, and a watcher takes notes meanwhile. -/
inductive Trace {α : Type} (see : Fabric → Errand → List α) :
    Fabric → List Errand → Fabric → List (Note α) → Prop
  | nil (f : Fabric) : Trace see f [] f []
  | cons {f g h : Fabric} {t : Errand} {ts : List Errand} {now later : List (Note α)} :
      Trace see (f.perform t).1 (f.perform t).2 g now → Trace see g ts h later →
        Trace see f (t :: ts) h (f.notes see t ++ now ++ later)

/-- What errands do not change, however the fabrics before and after are compared. -/
structure Enduring (R : Fabric → Fabric → Prop) : Prop where
  refl : ∀ f, R f f
  trans : ∀ {f g h}, R f g → R g h → R f h
  perform : ∀ f t, R f (Fabric.perform f t).1

theorem enduring_ways : Enduring SameWays := ⟨.refl, .trans, fun _ _ => ways_perform⟩

variable {α β γ : Type} {see : Fabric → Errand → List α} {f g h : Fabric} {e : EngineId}
  {m : Message} {causes : List Message} {t u : Errand} {ts us : List Errand}
  {seen first second : List (Note α)} {R : Fabric → Fabric → Prop}

/-- Whatever is done can be watched. -/
theorem Does.exists_trace (hdoes : f.Does ts g) (see : Fabric → Errand → List α) :
    ∃ seen, Trace see f ts g seen := by
  -- Which engine is listened to does not matter here.
  obtain ⟨said, hruns⟩ := hdoes.exists_runs 0
  clear hdoes
  induction hruns with
  | nil f => exact ⟨[], .nil f⟩
  | cons _ _ ihnow ihlater =>
    obtain ⟨now, hnow⟩ := ihnow
    obtain ⟨later, hlater⟩ := ihlater
    exact ⟨_, .cons hnow hlater⟩

theorem Trace.split (htrace : Trace see f (ts ++ us) h seen) : ∃ g first second,
    Trace see f ts g first ∧ Trace see g us h second ∧ seen = first ++ second := by
  induction ts generalizing f seen with
  | nil => exact ⟨f, [], seen, .nil f, htrace, rfl⟩
  | cons t ts ih =>
    cases htrace with
    | @cons _ k _ _ _ now later hnow hlater =>
      obtain ⟨g, first, second, hfirst, hsecond, rfl⟩ := ih hlater
      exact ⟨g, _, second, .cons hnow hfirst, hsecond, by simp⟩

theorem Trace.related (htrace : Trace see f ts g seen) (hR : Enduring R) : R f g := by
  induction htrace with
  | nil f => exact hR.refl f
  | cons _ _ ihnow ihlater => exact hR.trans (hR.trans (hR.perform _ _) ihnow) ihlater

theorem Does.related (hdoes : f.Does ts g) (hR : Enduring R) : R f g := by
  obtain ⟨seen, htrace⟩ := hdoes.exists_trace fun _ _ => ([] : List Unit)
  exact htrace.related hR

/-! ## What is due to a message itself -/

theorem comesTo_reactErrand {now : Nat} (hu : u ∈ (f.reactErrand e m now causes).2) :
    Errand.ComesTo ⟨.process e m, causes⟩ u := by
  obtain h | ⟨r, -, h⟩ | h := @reactErrand_cases f e m causes now
  · rw [h] at hu
    exact absurd hu List.not_mem_nil
  · rw [h] at hu
    obtain rfl := List.mem_singleton.1 hu
    exact .enquire m causes
  · rw [h] at hu
    obtain ⟨l, -, rfl⟩ := List.mem_map.1 hu
    exact .call m causes

theorem comesTo_perform (hu : u ∈ (f.perform t).2) : t.ComesTo u := by
  obtain ⟨chore, causes⟩ := t
  cases chore with
  | send e m =>
    obtain ⟨x, -, rfl⟩ := List.mem_map.1 hu
    exact .hand m causes
  | hand x m =>
    simp only [perform] at hu
    split at hu
    · obtain ⟨d, -, rfl⟩ := List.mem_map.1 hu
      exact .receive m d.2 causes
    · exact absurd hu List.not_mem_nil
  | receive e m =>
    simp only [perform] at hu
    split at hu
    · obtain rfl := List.mem_singleton.1 hu
      exact .process m causes
    · exact absurd hu List.not_mem_nil
  | process e m =>
    rcases @perform_process f e m causes with h | h
    · rw [h] at hu
      obtain rfl := List.mem_singleton.1 hu
      exact .touch m causes
    · rw [h, List.mem_append, List.mem_singleton] at hu
      rcases hu with hu | rfl
      · exact comesTo_reactErrand hu
      · exact .touch m causes
  | call l m =>
    cases l with
    | recorder name => exact absurd hu List.not_mem_nil
    | responder a cloud =>
      change u ∈ (f.answerErrand a cloud m causes).2 at hu
      obtain h | ⟨e, r, -, h⟩ := @answerErrand_cases f m causes a cloud
      · rw [h] at hu
        exact absurd hu List.not_mem_nil
      · rw [h] at hu
        obtain rfl := List.mem_singleton.1 hu
        exact .answer m causes
  | touch e sender now => exact absurd hu List.not_mem_nil

theorem direct_append (xs ys : List (Note α)) : direct (xs ++ ys) = direct xs ++ direct ys := by
  simp [direct]

theorem direct_notes (ht : t.causes = []) : direct (f.notes see t) = see f t := by
  simp [direct, notes, ht, List.filter_map, Function.comp_def]

/-- Errands of a sort, all of which either have causes or show nothing, come down to nothing that is
noted directly. -/
theorem Trace.direct_eq_nil (htrace : Trace see f ts g seen) {P : Errand → Prop}
    (hts : ∀ t ∈ ts, P t) (hbelow : ∀ {t u : Errand}, t.ComesTo u → P t → P u)
    (hsee : ∀ f t, P t → t.causes = [] → see f t = []) : direct seen = [] := by
  induction htrace with
  | nil f => rfl
  | @cons f g h t ts now later hnow hlater ihnow ihlater =>
    have ht := hts t List.mem_cons_self
    have hhere : direct (f.notes see t) = [] := by
      by_cases hcauses : t.causes = []
      · rw [direct_notes hcauses, hsee f t ht hcauses]
      · simp [direct, notes, List.filter_map, Function.comp_def, hcauses]
    rw [direct_append, direct_append, hhere, ihnow fun u hu => hbelow (comesTo_perform hu) ht,
      ihlater fun u hu => hts u (List.mem_cons_of_mem t hu)]
    rfl

/-- What is due to errands that have causes is due to something else. -/
theorem Trace.direct_of_causes (htrace : Trace see f ts g seen) (hts : ∀ t ∈ ts, t.causes ≠ []) :
    direct seen = [] := by
  refine htrace.direct_eq_nil (P := fun t => t.causes ≠ []) hts (fun h ht hnone => ht ?_)
    fun _ _ ht hcauses => absurd hcauses ht
  have hsuffix := h.causes
  rw [hnone] at hsuffix
  exact List.suffix_nil.1 hsuffix

section Each

/-! Errands without causes are done one after the other, and none of them comes down to anything
else of which there is something to note. -/

variable {as : List β} {errand : β → Errand}
  (hcauses : ∀ a, (errand a).causes = [])
  (hbelow : ∀ {f g : Fabric} {a : β} {now : List (Note α)},
    Trace see (f.perform (errand a)).1 (f.perform (errand a)).2 g now → direct now = [])

include hcauses hbelow

/-- What is seen of each errand is all, and is told beforehand as far as it is the same at any time.
-/
theorem Trace.direct_each (hR : Enduring R) (look : α → γ)
    (hlook : ∀ {g}, R f g → ∀ a ∈ as, (see g (errand a)).map look = (see f (errand a)).map look)
    (htrace : Trace see f (as.map errand) g seen) :
    (direct seen).map look = as.flatMap fun a => (see f (errand a)).map look := by
  induction as generalizing f seen with
  | nil =>
    cases htrace
    rfl
  | cons a as ih =>
    cases htrace with
    | @cons _ k _ _ _ now later hnow hlater =>
      have hk : R f k := hR.trans (hR.perform f _) (hnow.related hR)
      have hrest : ∀ b ∈ as, (see k (errand b)).map look = (see f (errand b)).map look :=
        fun b hb => hlook hk b (List.mem_cons_of_mem a hb)
      have hlater := ih (fun hj b hb => (hlook (hR.trans hk hj) b (List.mem_cons_of_mem a hb)).trans
        (hrest b hb).symm) hlater
      rw [direct_append, direct_append, hbelow hnow, direct_notes (hcauses a), List.append_nil,
        List.map_append, hlater, List.flatMap_cons]
      exact congrArg _ (List.flatMap_congr hrest)

/-- What is noted was seen of one of the errands. -/
theorem Trace.mem_direct (hR : Enduring R) (htrace : Trace see f (as.map errand) g seen) {x : α}
    (hx : x ∈ direct seen) : ∃ k, R f k ∧ ∃ a ∈ as, x ∈ see k (errand a) := by
  induction as generalizing f seen with
  | nil =>
    cases htrace
    exact absurd hx List.not_mem_nil
  | cons a as ih =>
    cases htrace with
    | @cons _ k _ _ _ now later hnow hlater =>
      have hk : R f k := hR.trans (hR.perform f _) (hnow.related hR)
      rw [direct_append, direct_append, hbelow hnow, direct_notes (hcauses a), List.append_nil,
        List.mem_append] at hx
      rcases hx with hx | hx
      · exact ⟨f, hR.refl f, a, List.mem_cons_self, hx⟩
      · obtain ⟨j, hj, b, hb, hx⟩ := ih hlater hx
        exact ⟨j, hR.trans hk hj, b, List.mem_cons_of_mem a hb, hx⟩

end Each

end Fabric

end Overlay
