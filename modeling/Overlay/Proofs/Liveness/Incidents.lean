import Overlay.Proofs.Mesh.Liveness
import Overlay.Proofs.Seclusion.Visits

/-!
# What happens at an engine during a pass

A liveness pass sends pings, and each of them may set off a cascade in which the engine is handed
messages, its listeners get some of them, and agents of its own answer through it. All of this is
written down here in the order in which it happens, together with what the pass does on its own
account: whom it removes, and which faults it hands to the listeners. There is one such log for
every pass (`passes_iff`).
-/

namespace Overlay

inductive Incident where
  /-- It hands a message to its gateways. -/
  | sends (message : Message)
  /-- It is handed a message, in a certain state. -/
  | meets (engine : Engine) (message : Message)
  /-- A message goes to its listeners. -/
  | reports (message : Message)
  /-- A pass removes an identity. -/
  | forgets (contact : Identity)

/-- Whether an engine does something itself. -/
def Incident.isDeed : Incident → Bool
  | .meets _ _ => false
  | _ => true

def Errand.incidents (e : EngineId) (f : Fabric) : Errand → List Incident
  | ⟨.send d m, _⟩ => if d = e then [.sends m] else []
  | ⟨.process d m, _⟩ =>
    if d = e then
      .meets (f.engine e) m :: if (f.engine e).passesOn m then [.reports m] else []
    else []
  | _ => []

namespace Fabric

/-! ## Logs of errands -/

/-- Errands take one fabric to another one, and what is noted of each of them makes up a log. -/
inductive Logs {α : Type} (note : Fabric → Errand → List α) :
    Fabric → List Errand → Fabric → List α → Prop
  | nil (f : Fabric) : Logs note f [] f []
  | cons {f g h : Fabric} {t : Errand} {ts : List Errand} {now later : List α} :
      Logs note (f.perform t).1 (f.perform t).2 g now → Logs note g ts h later →
        Logs note f (t :: ts) h (note f t ++ now ++ later)

variable {α : Type} {note : Fabric → Errand → List α} {f g h : Fabric} {e : EngineId} {t : Errand}
  {ts us : List Errand} {log log' : List α} {order : List (Identity × Slot)}
  {incidents incidents' : List Incident}

namespace Logs

theorem split (hlog : Logs note f (ts ++ us) h log) : ∃ g first second,
    Logs note f ts g first ∧ Logs note g us h second ∧ log = first ++ second := by
  induction ts generalizing f log with
  | nil => exact ⟨f, [], log, .nil f, hlog, rfl⟩
  | cons t ts ih =>
    cases hlog with
    | @cons _ k _ _ _ now later hnow hlater =>
      obtain ⟨g, first, second, hfirst, hsecond, rfl⟩ := ih hlater
      exact ⟨g, _, second, .cons hnow hfirst, hsecond, by simp⟩

/-- A cascade that comes to an end has a log. -/
theorem of_run {n : Nat} {past sent : List Sending} (note : Fabric → Errand → List α)
    (hrun : (Cascade.mk f ts past).run n = ⟨g, [], sent⟩) : ∃ log, Logs note f ts g log := by
  induction n generalizing f ts past with
  | zero =>
    obtain ⟨rfl, rfl, -⟩ := Cascade.mk.inj hrun
    exact ⟨[], .nil f⟩
  | succ n ih =>
    cases ts with
    | nil =>
      have hlater : ∃ log, Logs note f [] g log := ih hrun
      exact hlater
    | cons t ts =>
      have hlater : ∃ log, Logs note (f.perform t).1 ((f.perform t).2 ++ ts) g log := ih hrun
      obtain ⟨log, hlog⟩ := hlater
      obtain ⟨k, first, second, hfirst, hsecond, -⟩ := hlog.split
      exact ⟨_, .cons hfirst hsecond⟩

theorem unique (hg : Logs note f ts g log) (hh : Logs note f ts h log') : g = h ∧ log = log' := by
  induction hg generalizing h log' with
  | nil f => cases hh; exact ⟨rfl, rfl⟩
  | cons _ _ ihnow ihlater =>
    cases hh with
    | cons hnow hlater =>
      obtain ⟨rfl, rfl⟩ := ihnow hnow
      obtain ⟨rfl, rfl⟩ := ihlater hlater
      exact ⟨rfl, rfl⟩

theorem ways (hlog : Logs note f ts g log) : f.SameWays g := by
  induction hlog with
  | nil f => exact .refl f
  | cons _ _ ihnow ihlater => exact (ways_perform.trans ihnow).trans ihlater

theorem of_singleton (hlog : Logs note f [t] g log) :
    ∃ rest, Logs note (f.perform t).1 (f.perform t).2 g rest ∧ log = note f t ++ rest := by
  cases hlog with
  | cons hnow hlater =>
    cases hlater
    exact ⟨_, hnow, by simp⟩

end Logs

theorem Does.exists_logs (hdoes : f.Does ts g) (note : Fabric → Errand → List α) :
    ∃ log, Logs note f ts g log := by
  obtain ⟨n, sent, hn⟩ := hdoes
  have hrun := hn [] []
  rw [List.append_nil] at hrun
  exact Logs.of_run note hrun

/-! ## Logs of passes -/

/-- An engine asks a contact for a sign of life, with what happens to it while it does. -/
def Asks (e : EngineId) (f : Fabric) (contact : Identity) (g : Fabric)
    (incidents : List Incident) : Prop :=
  Logs (Errand.incidents e) f.fresh.2
    [⟨.send e (.ping f.fresh.1 (f.engine e).identity contact), []⟩] g incidents

/-- A message goes to the listeners of an engine, with what happens to it while they are called. -/
def Tells (e : EngineId) (f : Fabric) (m : Message) (g : Fabric) (incidents : List Incident) :
    Prop :=
  Logs (Errand.incidents e) (f.dispatchErrand e m []).1 (f.dispatchErrand e m []).2 g incidents

/-- A pass of an engine over some contacts, with what happens to the engine meanwhile. -/
inductive Passes (e : EngineId) :
    Fabric → List (Identity × Slot) → Fabric → List Incident → Prop
  | done (f : Fabric) : Passes e f [] f []
  | spare {f g : Fabric} {c : Identity × Slot} {order : List (Identity × Slot)}
      {later : List Incident} : (f.engine e).isQuiet c.2 = false → Passes e f order g later →
        Passes e f (c :: order) g later
  | ask {f g h : Fabric} {c : Identity × Slot} {order : List (Identity × Slot)}
      {asked later : List Incident} : (f.engine e).isQuiet c.2 = true → Asks e f c.1 g asked →
        (g.engine e).evicted? c.1 c.2 = none → Passes e g order h later →
          Passes e f (c :: order) h (asked ++ later)
  | giveUp {f g h k : Fabric} {c : Identity × Slot} {order : List (Identity × Slot)} {x : Engine}
      {asked told later : List Incident} : (f.engine e).isQuiet c.2 = true →
        Asks e f c.1 g asked → (g.engine e).evicted? c.1 c.2 = some x →
          Tells e (g.setEngine e x).fresh.2 (.fault (g.setEngine e x).fresh.1 x.identity c.1) h told →
            Passes e h order k later →
              Passes e f (c :: order) k (asked ++ .forgets c.1 ::
                .reports (.fault (g.setEngine e x).fresh.1 x.identity c.1) :: told ++ later)

theorem exists_asks (e : EngineId) (f : Fabric) (contact : Identity) :
    ∃ incidents, Asks e f contact (f.pingFrom e contact) incidents :=
  (does_send f.fresh.2 e _ []).exists_logs _

theorem exists_tells (e : EngineId) (f : Fabric) (m : Message) :
    ∃ incidents, Tells e f m (f.dispatch e m) incidents :=
  (does_dispatchBy (fun _ f e => does_send f e _ _) f e).exists_logs _

theorem exists_passes (e : EngineId) (f : Fabric) (order : List (Identity × Slot)) :
    ∃ incidents, Passes e f order (f.pass e order) incidents := by
  unfold pass
  induction order generalizing f with
  | nil => exact ⟨[], .done f⟩
  | cons c order ih =>
    rw [List.foldl_cons, probeContact]
    split
    · next hquiet =>
      obtain ⟨asked, hasked⟩ := exists_asks e f c.1
      cases hevicted : ((f.pingFrom e c.1).engine e).evicted? c.1 c.2 with
      | none =>
        simp only [evictFrom, hevicted]
        obtain ⟨later, hlater⟩ := ih (f.pingFrom e c.1)
        exact ⟨_, .ask hquiet hasked hevicted hlater⟩
      | some x =>
        simp only [evictFrom, hevicted]
        obtain ⟨told, htold⟩ := exists_tells e ((f.pingFrom e c.1).setEngine e x).fresh.2
          (.fault ((f.pingFrom e c.1).setEngine e x).fresh.1 x.identity c.1)
        obtain ⟨later, hlater⟩ := ih _
        exact ⟨_, .giveUp hquiet hasked hevicted htold hlater⟩
    · next hquiet =>
      obtain ⟨later, hlater⟩ := ih f
      exact ⟨later, .spare (by simpa using hquiet) hlater⟩

theorem Passes.unique (hg : Passes e f order g incidents) (hh : Passes e f order h incidents') :
    g = h ∧ incidents = incidents' := by
  induction hg generalizing h incidents' with
  | done f => cases hh; exact ⟨rfl, rfl⟩
  | spare hquiet _ ih =>
    cases hh with
    | spare _ hlater => exact ih hlater
    | ask hquiet' | giveUp hquiet' => rw [hquiet] at hquiet'; contradiction
  | ask hquiet hasked hevicted _ ih =>
    cases hh with
    | spare hquiet' => rw [hquiet] at hquiet'; contradiction
    | ask _ hasked' _ hlater =>
      obtain ⟨rfl, rfl⟩ := Logs.unique hasked hasked'
      obtain ⟨rfl, rfl⟩ := ih hlater
      exact ⟨rfl, rfl⟩
    | giveUp _ hasked' hevicted' =>
      obtain ⟨rfl, -⟩ := Logs.unique hasked hasked'
      rw [hevicted] at hevicted'
      contradiction
  | giveUp hquiet hasked hevicted htold _ ih =>
    cases hh with
    | spare hquiet' => rw [hquiet] at hquiet'; contradiction
    | ask _ hasked' hevicted' =>
      obtain ⟨rfl, -⟩ := Logs.unique hasked hasked'
      rw [hevicted] at hevicted'
      contradiction
    | giveUp _ hasked' hevicted' htold' hlater =>
      obtain ⟨rfl, rfl⟩ := Logs.unique hasked hasked'
      obtain rfl := Option.some.inj (hevicted.symm.trans hevicted')
      obtain ⟨rfl, rfl⟩ := Logs.unique htold htold'
      obtain ⟨rfl, rfl⟩ := ih hlater
      exact ⟨rfl, rfl⟩

/-- **Every pass has one log.** -/
theorem passes_iff (h : Passes e f order (f.pass e order) incidents) :
    Passes e f order g incidents' ↔ g = f.pass e order ∧ incidents' = incidents := by
  constructor
  · exact fun h' => h'.unique h
  · rintro ⟨rfl, rfl⟩
    exact h

end Fabric

end Overlay
