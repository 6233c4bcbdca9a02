import Mathlib.Logic.Function.Basic
import Overlay.Proofs.Liveness.Incidents

/-!
# Passes that nobody answers

If nothing that comes in during a pass concerns the engine, the pass does what its contacts looked
like when it began, in whatever order they are looked at: those who are quiet get a ping each, and
those who are lost as well are removed and reported, each right after its ping. Other engines may
hear the pings and do with them what they like, and the pings of the engine itself may come back.

While a ping is on its way, every errand is clear of the engine (`Clear`): it is one of somebody
else, or brings the engine a message, or touches a sender who is not listed. Clear errands come down
to clear errands and leave the engine alone (`Logs.clear`).
-/

namespace Overlay

/-- Who gets a message at once does not depend on what was handed in before. -/
theorem Fanout.snd_dispatch {ℓ : Type} (q : Fanout ℓ) (m n : Message) :
    ((q.dispatch m).1.dispatch n).2 = (q.dispatch n).2 := by
  obtain ⟨mode, listeners, next, queue, accepting⟩ := q
  cases mode <;> cases accepting <;> rfl

namespace Engine

variable {x : Engine} {i : Identity} {m : Message} {now : Nat} {uuid : Uuid}

/-- Whether nothing follows from a message that comes in: it is from nobody who is listed, and not
meant for this process. -/
def ignores (x : Engine) (m : Message) : Bool :=
  !x.directory.isRemote m.sender && !x.admits m

theorem touched_of_not_isRemote (h : x.directory.isRemote i = false) : x.touched i now = x := by
  rw [touched, Directory.touch, Directory.remote?_eq_none h]

theorem not_passesOn_of_ignores (h : x.ignores m = true) : x.passesOn m = false := by
  simp only [ignores, Bool.and_eq_true, Bool.not_eq_true'] at h
  simp [passesOn, h.2]

theorem evicted?_eq_none_iff {s : Slot} (h : x.directory.isRemote i = true) :
    x.evicted? i s = none ↔ x.isLost s = false := by
  simp [evicted?, h]

theorem evicted?_eq_some_iff {s : Slot} {y : Engine} (h : x.directory.isRemote i = true) :
    x.evicted? i s = some y ↔
      x.isLost s = true ∧ { x with directory := x.directory.removeRemote i } = y := by
  simp [evicted?, h]

/-- The engine after it has given up an identity and reported that. -/
def without (x : Engine) (uuid : Uuid) (i : Identity) : Engine :=
  { x with
    directory := x.directory.removeRemote i
    fanout := (x.fanout.dispatch (.fault uuid x.identity i)).1 }

/-- What a pass does about a contact if nobody answers. -/
def deeds (x : Engine) (ping fault : Identity → Uuid) (c : Identity × Slot) : List Incident :=
  if x.isQuiet c.2 then
    .sends (.ping (ping c.1) x.identity c.1) ::
      if x.isLost c.2 then [.forgets c.1, .reports (.fault (fault c.1) x.identity c.1)] else []
  else []

/-- Whom a pass gives up if nobody answers. -/
def lost (x : Engine) (order : List (Identity × Slot)) : List Identity :=
  (order.filter fun c => x.isQuiet c.2 && x.isLost c.2).map Prod.fst

/-- The engine after it has given up identities one after the other. -/
def withoutAll (x : Engine) (fault : Identity → Uuid) (gone : List Identity) : Engine :=
  gone.foldl (fun x i => x.without (fault i) i) x

/-- What a listener gets at once when some identities are given up. -/
def faultsFor (x : Engine) (fault : Identity → Uuid) (l : Hearer) (gone : List Identity) :
    List Message :=
  gone.flatMap fun i =>
    List.replicate ((x.fanout.dispatch (.fault (fault i) x.identity i)).2.count l)
      (.fault (fault i) x.identity i)

section Without

variable {ping fault fault' : Identity → Uuid} {order before after : List (Identity × Slot)}
  {l : Hearer} {gone gone' : List Identity}

theorem deeds_withoutAll : (x.withoutAll fault gone).deeds ping fault' = x.deeds ping fault' := by
  induction gone generalizing x with
  | nil => rfl
  | cons i gone ih => exact ih

theorem lost_withoutAll : (x.withoutAll fault gone).lost order = x.lost order := by
  induction gone generalizing x with
  | nil => rfl
  | cons i gone ih => exact ih

theorem faultsFor_without : (x.without uuid i).faultsFor fault l gone = x.faultsFor fault l gone := by
  simp only [faultsFor, without, Fanout.snd_dispatch]

theorem faultsFor_withoutAll :
    (x.withoutAll fault gone).faultsFor fault' l gone' = x.faultsFor fault' l gone' := by
  induction gone generalizing x with
  | nil => rfl
  | cons i gone ih => exact ih.trans faultsFor_without

theorem withoutAll_append :
    x.withoutAll fault (gone ++ gone') = (x.withoutAll fault gone).withoutAll fault gone' :=
  List.foldl_append

theorem lost_append : x.lost (before ++ after) = x.lost before ++ x.lost after := by
  simp [lost]

theorem faultsFor_append : x.faultsFor fault l (gone ++ gone') =
    x.faultsFor fault l gone ++ x.faultsFor fault l gone' :=
  List.flatMap_append

theorem isRemote_withoutAll (hi : i ∉ gone) :
    (x.withoutAll fault gone).directory.isRemote i = x.directory.isRemote i := by
  induction gone generalizing x with
  | nil => rfl
  | cons j gone ih =>
    rw [List.mem_cons, not_or] at hi
    have hfirst : (x.without (fault j) j).directory.isRemote i = x.directory.isRemote i := by
      simp [without, hi.1]
    exact (ih hi.2).trans hfirst

theorem mem_of_mem_lost (hi : i ∈ x.lost order) : i ∈ order.map Prod.fst := by
  obtain ⟨c, hc, rfl⟩ := List.mem_map.1 hi
  exact List.mem_map_of_mem (List.mem_of_mem_filter hc)

theorem withoutAll_congr (h : ∀ i ∈ gone, fault i = fault' i) :
    x.withoutAll fault gone = x.withoutAll fault' gone :=
  List.foldl_ext _ _ _ fun x i hi => by rw [h i hi]

theorem faultsFor_congr (h : ∀ i ∈ gone, fault i = fault' i) :
    x.faultsFor fault l gone = x.faultsFor fault' l gone :=
  List.flatMap_congr fun i hi => by rw [h i hi]

end Without

end Engine

namespace Fabric

variable {f g h : Fabric} {d e : EngineId} {a : AgentId} {i : Identity} {m : Message}
  {causes : List Message} {t u : Errand} {ts : List Errand} {log asked told : List Incident}
  {name : String} {order : List (Identity × Slot)}

/-! ## Errands that are clear of an engine -/

/-- Nobody who is attached to an engine listens to another one. -/
def Undivided (f : Fabric) (e : EngineId) : Prop :=
  ∀ d, d ≠ e → ∀ a cloud s, .responder a cloud ∈ (f.engine d).fanout.audience →
    (f.member a).standing ≠ .joined e s

/-- Only an engine itself has its listeners note messages under a name. -/
def KeptBy (f : Fabric) (e : EngineId) (name : String) : Prop :=
  ∀ d, d ≠ e → .recorder name ∉ (f.engine d).fanout.audience

/-- Nothing has happened to an engine, and nothing was noted under its names. -/
structure Spared (e : EngineId) (f g : Fabric) : Prop where
  ways : f.SameWays g
  engine : g.engine e = f.engine e
  noted : ∀ name, f.KeptBy e name → g.noted name = f.noted name

/-- Errands that change nothing about an engine if it ignores what they bring it. -/
def Clear (f : Fabric) (e : EngineId) : Errand → Prop
  | ⟨.send d _, _⟩ => d ≠ e
  | ⟨.call (.recorder name) _, _⟩ => ¬f.KeptBy e name
  | ⟨.call (.responder a _) _, _⟩ => ∀ s, (f.member a).standing ≠ .joined e s
  | ⟨.touch d sender _, _⟩ => d = e → (f.engine e).directory.isRemote sender = false
  | _ => True

def Ignores (log : List Incident) : Prop :=
  ∀ x m, .meets x m ∈ log → x.ignores m = true

theorem SameWays.keptBy (hw : f.SameWays g) : g.KeptBy e name ↔ f.KeptBy e name := by
  simp only [KeptBy, hw.audience]

theorem SameWays.undivided (hw : f.SameWays g) (hf : f.Undivided e) : g.Undivided e := by
  intro d hd a cloud s ha
  rw [hw.audience] at ha
  rw [member, hw.members]
  exact hf d hd a cloud s ha

theorem Spared.refl (e : EngineId) (f : Fabric) : Spared e f f := ⟨.refl f, rfl, fun _ _ => rfl⟩

theorem Spared.trans (hfg : Spared e f g) (hgh : Spared e g h) : Spared e f h where
  ways := hfg.ways.trans hgh.ways
  engine := hgh.engine.trans hfg.engine
  noted := fun name hname =>
    (hgh.noted name (hfg.ways.keptBy.2 hname)).trans (hfg.noted name hname)

theorem Spared.symm (h : Spared e f g) : Spared e g f where
  ways := h.ways.symm
  engine := h.engine.symm
  noted := fun name hname => (h.noted name (h.ways.keptBy.1 hname)).symm

theorem Spared.of_untouched (hw : f.SameWays g) (he : g.engine e = f.engine e)
    (hh : g.heard = f.heard) : Spared e f g :=
  ⟨hw, he, fun _ _ => by rw [Fabric.noted, hh, Fabric.noted]⟩

theorem spared_inspect : Spared e f (f.inspect d m) :=
  .of_untouched .inspect (by rw [engine, aside_inspect.engines, engine]) aside_inspect.heard

theorem spared_fresh : Spared e f f.fresh.2 := .of_untouched (.of_eq rfl rfl rfl rfl) rfl rfl

/-- What another engine makes of a message. -/
theorem spared_reactErrand (hne : d ≠ e) (now : Nat) :
    Spared e f (f.reactErrand d m now causes).1 := by
  have hset : ∀ x, (f.setEngine d x).engine e = f.engine e := fun x =>
    engine_setEngine_ne x (Ne.symm hne)
  refine .of_untouched (ways_reactErrand now) ?_ ?_ <;> unfold reactErrand <;> split
  · rfl
  · exact hset _
  · rfl
  · simp only [dispatchErrand]
    split
    · exact hset _
    · rw [engine, (aside_wake _).engines]
      exact hset _
  · rfl
  · rfl
  · rfl
  · simp only [dispatchErrand]
    split
    · rfl
    · exact (aside_wake _).heard

/-- A message that an engine ignores. -/
theorem perform_process_of_not_admits (hadm : (f.engine d).admits m = false) :
    f.perform ⟨.process d m, causes⟩ =
      (f.inspect d m, [⟨.touch d m.sender (f.engine d).clock, causes⟩]) := by
  simp [perform, Closed.engine_inspect, hadm]

theorem Ignores.process (hig : Ignores ((Errand.mk (.process e m) causes).incidents e f)) :
    (f.engine e).directory.isRemote m.sender = false ∧ (f.engine e).admits m = false := by
  have h := hig (f.engine e) m (by simp [Errand.incidents])
  simpa [Engine.ignores] using h

theorem Clear.spares (ht : f.Clear e t) (hig : Ignores (t.incidents e f)) :
    Spared e f (f.perform t).1 := by
  obtain ⟨chore, causes⟩ := t
  cases chore with
  | send d m => exact .refl e f
  | receive d m => exact .refl e f
  | hand x m =>
    refine .of_untouched ways_perform ?_ ?_ <;> simp only [perform] <;> split <;> rfl
  | process d m =>
    by_cases hd : d = e
    · subst hd
      rw [perform_process_of_not_admits hig.process.2]
      exact spared_inspect
    · simp only [perform]
      split
      · exact spared_inspect.trans (spared_reactErrand hd _)
      · exact spared_inspect
  | call l m =>
    cases l with
    | recorder name =>
      refine ⟨ways_perform, rfl, fun other hother => ?_⟩
      have hne : name ≠ other := fun h => ht (h ▸ hother)
      simp [perform, noted, hne]
    | responder a cloud =>
      refine .of_untouched ways_perform ?_ ?_ <;> simp only [perform, answerErrand] <;> split <;> rfl
  | touch d sender now =>
    refine .of_untouched ways_perform ?_ rfl
    by_cases hd : d = e
    · subst hd
      simp only [perform, Engine.touched_of_not_isRemote (ht rfl), setEngine_engine]
    · exact engine_setEngine_ne _ (Ne.symm hd)

theorem Clear.of_spared (ht : f.Clear e t) (hs : Spared e f g) : g.Clear e t := by
  obtain ⟨chore, causes⟩ := t
  cases chore with
  | send d m => exact ht
  | hand x m => trivial
  | receive d m => trivial
  | process d m => trivial
  | call l m =>
    cases l with
    | recorder name => exact fun hkept => ht (hs.ways.keptBy.1 hkept)
    | responder a cloud =>
      intro s
      rw [member, hs.ways.members]
      exact ht s
  | touch d sender now => exact fun hd => hs.engine ▸ ht hd

/-- What another engine has to do about a message. -/
theorem Undivided.clear_react (hf : f.Undivided e) (hne : d ≠ e) (now : Nat) :
    ∀ u ∈ (f.reactErrand d m now causes).2, f.Clear e u := by
  intro u hu
  unfold reactErrand at hu
  split at hu
  · exact absurd hu List.not_mem_nil
  · exact absurd hu List.not_mem_nil
  · obtain rfl := List.mem_singleton.1 hu
    exact hne
  · obtain ⟨l, hl, rfl⟩ := List.mem_map.1 hu
    have hl : l ∈ (f.engine d).fanout.audience := mem_dispatch hl
    cases l with
    | recorder name => exact fun hkept => hkept d hne hl
    | responder a cloud => exact fun s => hf d hne a cloud s hl

/-- Clear errands come down to clear errands. -/
theorem Clear.perform (ht : f.Clear e t) (hf : f.Undivided e) (hig : Ignores (t.incidents e f)) :
    ∀ u ∈ (f.perform t).2, f.Clear e u := by
  obtain ⟨chore, causes⟩ := t
  intro u hu
  cases chore with
  | send d m =>
    obtain ⟨x, -, rfl⟩ := List.mem_map.1 hu
    trivial
  | hand x m =>
    simp only [Fabric.perform] at hu
    split at hu
    · obtain ⟨c, -, rfl⟩ := List.mem_map.1 hu
      trivial
    · exact absurd hu List.not_mem_nil
  | receive d m =>
    simp only [Fabric.perform] at hu
    split at hu
    · obtain rfl := List.mem_singleton.1 hu
      trivial
    · exact absurd hu List.not_mem_nil
  | process d m =>
    by_cases hd : d = e
    · subst hd
      rw [perform_process_of_not_admits hig.process.2] at hu
      obtain rfl := List.mem_singleton.1 hu
      exact fun _ => hig.process.1
    · have hsame : f.SameWays (f.inspect d m) := .inspect
      have hreact : ∀ u ∈ ((f.inspect d m).reactErrand d m (f.engine d).clock causes).2,
          (f.inspect d m).Clear e u := (hsame.undivided hf).clear_react hd _
      rcases @perform_process f d m causes with h | h
      · rw [h] at hu
        obtain rfl := List.mem_singleton.1 hu
        exact fun h => absurd h hd
      · rw [h, List.mem_append, List.mem_singleton] at hu
        rcases hu with hu | rfl
        · exact (hreact u hu).of_spared spared_inspect.symm
        · exact fun h => absurd h hd
  | call l m =>
    cases l with
    | recorder name => exact absurd hu List.not_mem_nil
    | responder a cloud =>
      simp only [Fabric.perform, answerErrand] at hu
      split at hu
      · next reply c s hreply hstands =>
        obtain rfl := List.mem_singleton.1 hu
        exact fun hc => ht s (hc ▸ hstands)
      · exact absurd hu List.not_mem_nil
  | touch d sender now => exact absurd hu List.not_mem_nil

/-- All that an engine does about a clear errand is to meet a message. -/
theorem Clear.no_deeds (ht : f.Clear e t) (hig : Ignores (t.incidents e f)) :
    (t.incidents e f).filter Incident.isDeed = [] := by
  obtain ⟨chore, causes⟩ := t
  cases chore with
  | send d m =>
    have hd : d ≠ e := ht
    simp [Errand.incidents, hd]
  | process d m =>
    by_cases hd : d = e
    · subst hd
      have hignores := hig (f.engine d) m (by simp [Errand.incidents])
      simp [Errand.incidents, Engine.not_passesOn_of_ignores hignores, Incident.isDeed]
    · simp [Errand.incidents, hd]
  | _ => rfl

theorem Ignores.append {first second : List Incident} (h : Ignores (first ++ second)) :
    Ignores first ∧ Ignores second :=
  ⟨fun x m hm => h x m (List.mem_append_left _ hm), fun x m hm => h x m (List.mem_append_right _ hm)⟩

/-- **Clear errands leave an engine alone**, if it ignores what they bring it. -/
theorem Logs.clear (hlog : Logs (Errand.incidents e) f ts g log) (hf : f.Undivided e)
    (hts : ∀ t ∈ ts, f.Clear e t) (hig : Ignores log) :
    Spared e f g ∧ log.filter Incident.isDeed = [] := by
  induction hlog with
  | nil f => exact ⟨.refl e f, rfl⟩
  | @cons f g h t ts now later _ _ ihnow ihlater =>
    have ht := hts t List.mem_cons_self
    obtain ⟨hignow, higlater⟩ := hig.append
    obtain ⟨higt, hignow⟩ := hignow.append
    have hperform := ht.spares higt
    obtain ⟨hnow, hnone⟩ := ihnow (hperform.ways.undivided hf)
      (fun u hu => (ht.perform hf higt u hu).of_spared hperform) hignow
    have hdone := hperform.trans hnow
    obtain ⟨hlater, hnone'⟩ := ihlater (hdone.ways.undivided hf)
      (fun u hu => (hts u (List.mem_cons_of_mem t hu)).of_spared hdone) higlater
    exact ⟨hdone.trans hlater, by simp [ht.no_deeds higt, hnone, hnone']⟩

/-! ## One contact -/

/-- A ping that nobody answers. -/
theorem Asks.unanswered (hasked : Asks e f i g asked) (hf : f.Undivided e) (hig : Ignores asked) :
    Spared e f g ∧ asked.filter Incident.isDeed =
      [.sends (.ping f.fresh.1 (f.engine e).identity i)] := by
  obtain ⟨rest, hrest, rfl⟩ := Logs.of_singleton hasked
  have hfresh : Spared e f f.fresh.2 := spared_fresh
  have hhands : ∀ u ∈ (f.fresh.2.perform ⟨.send e (.ping f.fresh.1 (f.engine e).identity i), []⟩).2,
      f.fresh.2.Clear e u := by
    intro u hu
    obtain ⟨x, -, rfl⟩ := List.mem_map.1 hu
    trivial
  obtain ⟨hspared, hnone⟩ := hrest.clear (hfresh.ways.undivided hf) hhands hig.append.2
  refine ⟨hfresh.trans hspared, ?_⟩
  rw [List.filter_append, hnone, Errand.incidents, if_pos rfl]
  rfl

/-- Listeners get a message that nobody answers. -/
theorem Logs.calls {audience : List Hearer}
    (hlog : Logs (Errand.incidents e) f (audience.map fun l => ⟨.call l m, causes⟩) g log)
    (hm : m.kind.rank = 0) :
    g.engine e = f.engine e ∧ log = [] ∧
      ∀ name, g.noted name = f.noted name ++ List.replicate (audience.count (.recorder name)) m := by
  induction audience generalizing f log with
  | nil =>
    cases hlog
    exact ⟨rfl, rfl, by simp⟩
  | cons l audience ih =>
    have hparts : ∃ k first second, Logs (Errand.incidents e) f [⟨.call l m, causes⟩] k first ∧
        Logs (Errand.incidents e) k (audience.map fun l => ⟨.call l m, causes⟩) g second ∧
        log = first ++ second :=
      Logs.split hlog
    obtain ⟨k, first, second, hfirst, hsecond, rfl⟩ := hparts
    obtain ⟨rest, hrest, hnone⟩ := hfirst.of_singleton
    have hk : k.engine e = f.engine e ∧ rest = [] ∧
        ∀ name, k.noted name = f.noted name ++ if l = .recorder name then [m] else [] := by
      cases l with
      | recorder other =>
        cases hrest
        refine ⟨rfl, rfl, fun name => ?_⟩
        simp only [perform, noted_note, Hearer.recorder.injEq]
      | responder a cloud =>
        have hsilent : ∀ uuid, (f.fresh.2.member a).agent.reply? cloud uuid m = none := by
          intro uuid
          cases hreply : (f.fresh.2.member a).agent.reply? cloud uuid m with
          | none => rfl
          | some reply =>
            have hbelow := (Message.follows_reply hreply).below.2
            rw [hm] at hbelow
            exact absurd hbelow (Nat.not_lt_zero _)
        simp only [perform, answerErrand, hsilent] at hrest
        cases hrest
        exact ⟨rfl, rfl, fun name => by simp [noted, show f.fresh.2.heard = f.heard from rfl]⟩
    obtain ⟨hengine, rfl, hnoted⟩ := hk
    obtain ⟨hengine', rfl, hnoted'⟩ := ih hsecond
    refine ⟨hengine'.trans hengine, hnone ▸ rfl, fun name => ?_⟩
    rw [hnoted', hnoted]
    by_cases hl : l = .recorder name <;> simp [hl, List.replicate_succ]

theorem ways_dispatchErrand : f.SameWays (f.dispatchErrand e m causes).1 := by
  have hfanout : f.SameWays (f.setFanout e ((f.engine e).fanout.dispatch m).1) :=
    .setEngine (audience_dispatch _ m) rfl
  simp only [dispatchErrand]
  split
  · exact hfanout
  · exact hfanout.trans (.wake _)

/-- A message that nobody answers goes to the listeners, or into the queue for them. -/
theorem Tells.unanswered (htold : Tells e f m g told) (hm : m.kind.rank = 0)
    (he : e < f.engines.length) :
    f.SameWays g ∧ g.engine e = { f.engine e with fanout := ((f.engine e).fanout.dispatch m).1 } ∧
      told = [] ∧ ∀ name, g.noted name = f.noted name ++
        List.replicate (((f.engine e).fanout.dispatch m).2.count (.recorder name)) m := by
  have hways := ways_dispatchErrand.trans (Logs.ways htold)
  have hkept : (f.dispatchErrand e m []).1.engine e =
      { f.engine e with fanout := ((f.engine e).fanout.dispatch m).1 } ∧
      (f.dispatchErrand e m []).1.heard = f.heard := by
    simp only [dispatchErrand]
    split
    · exact ⟨engine_setEngine_self _ he, rfl⟩
    · rw [engine, (aside_wake _).engines]
      exact ⟨engine_setEngine_self _ he, (aside_wake _).heard⟩
  obtain ⟨hengine, hnone, hnoted⟩ := Logs.calls htold hm
  refine ⟨hways, hengine.trans hkept.1, hnone, fun name => ?_⟩
  rw [hnoted, noted, hkept.2, noted]
  rfl

/-! ## All contacts -/

theorem lt_of_isRemote (h : (f.engine e).directory.isRemote i = true) : e < f.engines.length := by
  by_contra hge
  have hnone : f.engine e = default := by simp [engine, List.getD, Nat.le_of_not_lt hge]
  rw [hnone] at h
  exact absurd h Bool.false_ne_true

/-- What a pass has done about some contacts, with the identifiers that it has given to its messages.
-/
structure Unanswered (e : EngineId) (f g : Fabric) (order : List (Identity × Slot))
    (log : List Incident) (ping fault : Identity → Uuid) : Prop where
  ways : f.SameWays g
  deeds : log.filter Incident.isDeed = order.flatMap ((f.engine e).deeds ping fault)
  engine : g.engine e = (f.engine e).withoutAll fault ((f.engine e).lost order)
  noted : ∀ name, f.KeptBy e name → g.noted name = f.noted name ++
    (f.engine e).faultsFor fault (.recorder name) ((f.engine e).lost order)

variable {ping fault ping' fault' : Identity → Uuid} {now later : List Incident}
  {c : Identity × Slot} {uuid : Uuid}

namespace Unanswered

theorem nil (f : Fabric) : Unanswered e f f [] [] ping fault :=
  ⟨.refl f, rfl, rfl, fun _ _ => (List.append_nil _).symm⟩

/-- Only the identifiers for the contacts in question matter. -/
theorem renumber (h : Unanswered e f g order log ping fault)
    (hping : ∀ c ∈ order, ping c.1 = ping' c.1) (hfault : ∀ c ∈ order, fault c.1 = fault' c.1) :
    Unanswered e f g order log ping' fault' := by
  have hlost : ∀ i ∈ (f.engine e).lost order, fault i = fault' i := by
    intro i hi
    obtain ⟨c, hc, rfl⟩ := List.mem_map.1 hi
    exact hfault c (List.mem_of_mem_filter hc)
  constructor
  case ways => exact h.ways
  case deeds =>
    rw [h.deeds]
    refine List.flatMap_congr fun c hc => ?_
    rw [Engine.deeds, Engine.deeds, hping c hc, hfault c hc]
  case engine => rw [h.engine, Engine.withoutAll_congr hlost]
  case noted =>
    intro name hname
    rw [h.noted name hname, Engine.faultsFor_congr hlost]

/-- Some contacts, and then others. -/
theorem append {before after : List (Identity × Slot)}
    (hfg : Unanswered e f g before now ping fault) (hgh : Unanswered e g h after later ping fault) :
    Unanswered e f h (before ++ after) (now ++ later) ping fault := by
  constructor
  case ways => exact hfg.ways.trans hgh.ways
  case deeds => rw [List.filter_append, hfg.deeds, hgh.deeds, hfg.engine, List.flatMap_append,
    Engine.deeds_withoutAll]
  case engine => rw [hgh.engine, hfg.engine, Engine.lost_withoutAll, Engine.lost_append,
    Engine.withoutAll_append]
  case noted =>
    intro name hname
    rw [hgh.noted name (hfg.ways.keptBy.2 hname), hfg.noted name hname, hfg.engine,
      Engine.lost_withoutAll, Engine.faultsFor_withoutAll, Engine.lost_append,
      Engine.faultsFor_append, List.append_assoc]

theorem isRemote (h : Unanswered e f g order log ping fault) (hi : i ∉ order.map Prod.fst) :
    (g.engine e).directory.isRemote i = (f.engine e).directory.isRemote i := by
  rw [h.engine]
  exact Engine.isRemote_withoutAll fun hlost => hi (Engine.mem_of_mem_lost hlost)

/-- One contact, and then others. -/
theorem cons {u v : Uuid} (hc : c.1 ∉ order.map Prod.fst)
    (hfirst : Unanswered e f g [c] now (fun _ => u) (fun _ => v))
    (hlater : Unanswered e g h order later ping fault) :
    Unanswered e f h (c :: order) (now ++ later) (Function.update ping c.1 u)
      (Function.update fault c.1 v) := by
  have hother : ∀ k ∈ order, k.1 ≠ c.1 := fun k hk heq => hc (heq ▸ List.mem_map_of_mem hk)
  refine (hfirst.renumber ?_ ?_).append (hlater.renumber ?_ ?_)
  · simp
  · simp
  · exact fun k hk => (Function.update_of_ne (hother k hk) _ _).symm
  · exact fun k hk => (Function.update_of_ne (hother k hk) _ _).symm

end Unanswered

/-- A contact that is not quiet. -/
theorem unanswered_spare (hquiet : (f.engine e).isQuiet c.2 = false) :
    Unanswered e f f [c] [] ping fault where
  ways := .refl f
  deeds := by simp [Engine.deeds, hquiet]
  engine := by simp [Engine.lost, hquiet, Engine.withoutAll]
  noted := fun _ _ => by simp [Engine.lost, hquiet, Engine.faultsFor]

/-- A contact that is asked and stays. -/
theorem unanswered_ask (hf : f.Undivided e) (hquiet : (f.engine e).isQuiet c.2 = true)
    (hlisted : (f.engine e).directory.isRemote c.1 = true) (hasked : Asks e f c.1 g asked)
    (hig : Ignores asked) (hstays : (g.engine e).evicted? c.1 c.2 = none) :
    Unanswered e f g [c] asked (fun _ => f.fresh.1) (fun _ => default) := by
  obtain ⟨hspared, hdeeds⟩ := hasked.unanswered hf hig
  rw [hspared.engine, Engine.evicted?_eq_none_iff hlisted] at hstays
  constructor
  case ways => exact hspared.ways
  case deeds => simp [Engine.deeds, hquiet, hstays, hdeeds]
  case engine => simp [Engine.lost, hstays, Engine.withoutAll, hspared.engine]
  case noted =>
    intro name hname
    simp [Engine.lost, hstays, Engine.faultsFor, hspared.noted name hname]

/-- A contact that is asked and given up. -/
theorem unanswered_giveUp {x : Engine} (hf : f.Undivided e)
    (hquiet : (f.engine e).isQuiet c.2 = true)
    (hlisted : (f.engine e).directory.isRemote c.1 = true) (hasked : Asks e f c.1 g asked)
    (hig : Ignores asked) (hevicted : (g.engine e).evicted? c.1 c.2 = some x)
    (htold : Tells e (g.setEngine e x).fresh.2
      (.fault (g.setEngine e x).fresh.1 x.identity c.1) h told) :
    told = [] ∧ Unanswered e f h [c] (asked ++ .forgets c.1 ::
      .reports (.fault (g.setEngine e x).fresh.1 x.identity c.1) :: told)
      (fun _ => f.fresh.1) (fun _ => (g.setEngine e x).fresh.1) := by
  obtain ⟨hspared, hdeeds⟩ := hasked.unanswered hf hig
  rw [hspared.engine] at hevicted
  obtain ⟨hlost, rfl⟩ := (Engine.evicted?_eq_some_iff hlisted).1 hevicted
  have hlen : e < g.engines.length := hspared.ways.length ▸ lt_of_isRemote hlisted
  have hremoved : g.SameWays (g.setEngine e { f.engine e with
      directory := (f.engine e).directory.removeRemote c.1 }).fresh.2 :=
    (SameWays.setEngine (by rw [hspared.engine]) (by rw [hspared.engine])).trans
      (.of_eq rfl rfl rfl rfl)
  have hnow : (g.setEngine e { f.engine e with
      directory := (f.engine e).directory.removeRemote c.1 }).fresh.2.engine e = { f.engine e with
        directory := (f.engine e).directory.removeRemote c.1 } := engine_setEngine_self _ hlen
  obtain ⟨hways, hengine, rfl, hnoted⟩ := htold.unanswered rfl (by rwa [hremoved.length])
  rw [hnow] at hengine hnoted
  refine ⟨rfl, ?_⟩
  constructor
  case ways => exact (hspared.ways.trans hremoved).trans hways
  case deeds => simp [Engine.deeds, hquiet, hlost, hdeeds, Incident.isDeed]
  case engine =>
    rw [hengine]
    simp [Engine.lost, hquiet, hlost, Engine.withoutAll, Engine.without]
  case noted =>
    intro name hname
    rw [hnoted]
    change g.noted name ++ _ = _
    rw [hspared.noted name hname]
    simp [Engine.lost, hquiet, hlost, Engine.faultsFor]

theorem Unanswered.listed (h : Unanswered e f g [c] now ping fault) (hc : c.1 ∉ order.map Prod.fst)
    (hlisted : ∀ k ∈ c :: order, (f.engine e).directory.isRemote k.1 = true) :
    ∀ k ∈ order, (g.engine e).directory.isRemote k.1 = true := by
  intro k hk
  have hother : k.1 ≠ c.1 := fun heq => hc (heq ▸ List.mem_map_of_mem hk)
  rw [h.isRemote (by simpa using hother)]
  exact hlisted k (List.mem_cons_of_mem c hk)

/-- **What a pass does that nobody answers.** -/
theorem Passes.unanswered (hpass : Passes e f order g log) (hf : f.Undivided e) (hig : Ignores log)
    (hnodup : (order.map Prod.fst).Nodup)
    (hlisted : ∀ c ∈ order, (f.engine e).directory.isRemote c.1 = true) :
    ∃ ping fault, Unanswered e f g order log ping fault := by
  induction hpass with
  | done f => exact ⟨default, default, .nil f⟩
  | @spare f g c order later hquiet _ ih =>
    rw [List.map_cons, List.nodup_cons] at hnodup
    have hfirst : Unanswered e f f [c] [] (fun _ => default) (fun _ => default) :=
      unanswered_spare hquiet
    obtain ⟨ping, fault, hlater⟩ := ih hf hig hnodup.2 (hfirst.listed hnodup.1 hlisted)
    exact ⟨_, _, hfirst.cons hnodup.1 hlater⟩
  | @ask f g h c order asked later hquiet hasked hstays _ ih =>
    rw [List.map_cons, List.nodup_cons] at hnodup
    obtain ⟨higasked, higlater⟩ := hig.append
    have hfirst := unanswered_ask hf hquiet (hlisted c List.mem_cons_self) hasked higasked hstays
    obtain ⟨ping, fault, hlater⟩ := ih (hfirst.ways.undivided hf) higlater hnodup.2
      (hfirst.listed hnodup.1 hlisted)
    exact ⟨_, _, hfirst.cons hnodup.1 hlater⟩
  | @giveUp f g h k c order x asked told later hquiet hasked hevicted htold _ ih =>
    rw [List.map_cons, List.nodup_cons] at hnodup
    obtain ⟨highead, higlater⟩ := hig.append
    have hfirst := (unanswered_giveUp hf hquiet (hlisted c List.mem_cons_self) hasked
      highead.append.1 hevicted htold).2
    obtain ⟨ping, fault, hlater⟩ := ih (hfirst.ways.undivided hf) higlater hnodup.2
      (hfirst.listed hnodup.1 hlisted)
    exact ⟨_, _, hfirst.cons hnodup.1 hlater⟩

end Fabric

end Overlay
