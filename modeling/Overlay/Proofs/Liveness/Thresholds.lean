import Overlay.Proofs.Liveness.Incidents
import Overlay.Proofs.Mesh.Basic

/-!
# Timeouts and what they come to

Settings say how long a contact may be silent to the nanosecond. A pass compares the silence, in whole
milliseconds of one word and never below zero, with what is left of the timeout after it has been
cut down to whole milliseconds, of which one word is kept. The product with the retries stops at the
greatest word.

So what the settings say is kept just if nothing is lost of the timeout on the way, and it is not
zero: otherwise somebody is asked before the time (`honoured_iff`). What the cut leaves is never more
than the timeout, so nobody has to wait for longer than the settings say to be asked.
-/

namespace Overlay

/-- For how long the contact in a slot has not been heard of, below zero if that was in the future. -/
def Engine.silence (x : Engine) (s : Slot) : Int :=
  x.clock - (x.directory.contact s).lastSeen

/-- Whether nobody is asked or given up before the time that settings say. Whenever a pass comes to a
contact and sends it a ping, the contact has been silent for the agent timeout; if the pass gives it
up after that, it has been silent for the timeout times the retries by then, or for the greatest
number of milliseconds if the product is more than one word can say. -/
def Settings.Honoured (s : Settings) : Prop :=
  ∀ (f g : Fabric) (e : EngineId) (c : Identity × Slot) (log : List Incident),
    (f.engine e).settings = s → f.Passes e [c] g log →
      ((∃ uuid, .sends (.ping uuid (f.engine e).identity c.1) ∈ log) →
        (s.agentTimeout.nanos : Int) ≤ (f.engine e).silence c.2 * 1000000) ∧
      (.forgets c.1 ∈ log →
        let product := s.agentTimeout.nanos * s.agentRetries.toNat
        let silence := ((f.pingFrom e c.1).engine e).silence c.2
        if product < 0x10000000000000000 * 1000000 then (product : Int) ≤ silence * 1000000
        else 0xFFFFFFFFFFFFFFFF ≤ silence)

namespace Fabric

variable {f g : Fabric} {e : EngineId} {c : Identity × Slot} {i : Identity} {m : Message}
  {t : Errand} {ts : List Errand} {log : List Incident}

/-! ## What a pass does about a contact -/

theorem Logs.not_forgets (hlog : Logs (Errand.incidents e) f ts g log) : .forgets i ∉ log := by
  induction hlog with
  | nil f => exact List.not_mem_nil
  | @cons f g h t ts now later _ _ ihnow ihlater =>
    have ht : .forgets i ∉ t.incidents e f := by
      obtain ⟨chore, causes⟩ := t
      cases chore <;> simp only [Errand.incidents] <;> grind
    simp only [List.mem_append, not_or]
    exact ⟨⟨ht, ihnow⟩, ihlater⟩

/-- Nothing happens about a contact that is not quiet. -/
theorem Passes.isQuiet_of_ne_nil (h : f.Passes e [c] g log) (hne : log ≠ []) :
    (f.engine e).isQuiet c.2 = true := by
  cases h with
  | spare hquiet hlater =>
    cases hlater
    exact absurd rfl hne
  | ask hquiet => exact hquiet
  | giveUp hquiet => exact hquiet

/-- Only who is lost is given up. -/
theorem Passes.isLost_of_forgets (h : f.Passes e [c] g log) (hi : .forgets i ∈ log) :
    ((f.pingFrom e c.1).engine e).isLost c.2 = true := by
  cases h with
  | spare _ hlater =>
    cases hlater
    exact absurd hi List.not_mem_nil
  | ask _ hasked _ hlater =>
    cases hlater
    rw [List.append_nil] at hi
    exact absurd hi (Logs.not_forgets hasked)
  | giveUp _ hasked hevicted =>
    obtain ⟨asked, hping⟩ := exists_asks e f c.1
    obtain ⟨rfl, -⟩ := Logs.unique hasked hping
    unfold Engine.evicted? at hevicted
    grind

/-- Who is quiet gets a ping. -/
theorem Passes.sends_of_isQuiet (h : f.Passes e [c] g log)
    (hquiet : (f.engine e).isQuiet c.2 = true) :
    ∃ uuid, .sends (.ping uuid (f.engine e).identity c.1) ∈ log := by
  have hsends : ∀ {k asked}, Asks e f c.1 k asked →
      .sends (.ping f.fresh.1 (f.engine e).identity c.1) ∈ asked := by
    intro k asked hasked
    obtain ⟨rest, -, rfl⟩ := Logs.of_singleton hasked
    simp [Errand.incidents]
  cases h with
  | spare hloud => rw [hquiet] at hloud; contradiction
  | ask _ hasked => exact ⟨_, List.mem_append_left _ (hsends hasked)⟩
  | giveUp _ hasked => exact ⟨_, List.mem_append_left _ (List.mem_append_left _ (hsends hasked))⟩

/-! ## What traffic leaves alone -/

def Unset (f g : Fabric) : Prop :=
  ∀ d, (g.engine d).settings = (f.engine d).settings

theorem unset_setEngine {d : EngineId} {x : Engine} (hx : x.settings = (f.engine d).settings) :
    Unset f (f.setEngine d x) :=
  part_setEngine Engine.settings hx

theorem closed_unset : Closed Unset fun _ _ => True where
  aside := fun h d => by rw [engine, h.engines, engine]
  trans := fun hfg hgh d => (hgh d).trans (hfg d)
  stable := fun _ _ => trivial
  carried := fun _ _ => trivial
  answer := fun _ _ _ => trivial
  note := fun _ _ _ => rfl
  queue := fun _ _ => unset_setEngine rfl

theorem processing_unset : Processing Unset fun _ _ => True where
  change := fun {_ _ _ change _} _ _ _ => unset_setEngine (by cases change <;> rfl)
  enquiry := fun _ _ => trivial
  touch := fun _ => unset_setEngine rfl

theorem settings_pingFrom : ((f.pingFrom e i).engine e).settings = (f.engine e).settings :=
  closed_unset.sendBy (f := f.fresh.2) (closed_unset.reception processing_unset levels) trivial e e

end Fabric

namespace Settings

variable {s : Settings}

/-! ## Timeouts that are not kept -/

/-- An engine with a contact that was heard of at some time. -/
def vigil (s : Settings) (lastSeen clock : Nat) : Fabric :=
  { Fabric.empty 0 with
    engines := [{ (default : Engine) with
      settings := s
      directory := Directory.empty.announce (.agent default) .empty lastSeen
      clock := clock }] }

/-- Somebody is asked before the time. -/
theorem not_honoured_of_early (lastSeen clock : Nat)
    (hquiet : s.agentTimeoutMillis ≤ clock - lastSeen)
    (hearly : ((clock : Int) - lastSeen) * 1000000 < s.agentTimeout.nanos) : ¬s.Honoured := by
  intro h
  have hquiet : ((s.vigil lastSeen clock).engine 0).isQuiet 0 = true := decide_eq_true hquiet
  obtain ⟨log, hpass⟩ := Fabric.exists_passes 0 (s.vigil lastSeen clock) [(.agent default, 0)]
  have hasked := (h _ _ 0 (.agent default, 0) log rfl hpass).1 (hpass.sends_of_isQuiet hquiet)
  have hsilence : ((s.vigil lastSeen clock).engine 0).silence 0 = (clock : Int) - lastSeen := rfl
  rw [hsilence] at hasked
  omega

/-- What is left of the timeout in milliseconds is no more than the timeout. -/
theorem agentTimeoutMillis_mul_le (s : Settings) :
    s.agentTimeoutMillis * 1000000 ≤ s.agentTimeout.nanos := by
  rw [agentTimeoutMillis, Duration.millis]
  omega

/-- Nothing is lost of the timeout. -/
theorem agentTimeoutMillis_mul_eq_iff : s.agentTimeoutMillis * 1000000 = s.agentTimeout.nanos ↔
    s.agentTimeout.nanos % 1000000 = 0 ∧ s.agentTimeout.nanos < 0x10000000000000000 * 1000000 := by
  rw [agentTimeoutMillis, Duration.millis]
  omega

/-! ## Timeouts that are kept -/

theorem ping_of_exact (hpos : 0 < s.agentTimeout.nanos)
    (hexact : s.agentTimeoutMillis * 1000000 = s.agentTimeout.nanos) {x : Engine} {slot : Slot}
    (hx : x.settings = s) (hquiet : x.isQuiet slot = true) :
    (s.agentTimeout.nanos : Int) ≤ x.silence slot * 1000000 := by
  have hle : s.agentTimeoutMillis ≤ x.clock - (x.directory.contact slot).lastSeen := by
    simpa [Engine.isQuiet, Engine.idle, hx] using hquiet
  rw [Engine.silence]
  omega

theorem eviction_of_exact (hpos : 0 < s.agentTimeout.nanos)
    (hexact : s.agentTimeoutMillis * 1000000 = s.agentTimeout.nanos)
    (hretries : s.agentRetries ≠ 0) {x : Engine} {slot : Slot} (hx : x.settings = s)
    (hlost : x.isLost slot = true) :
    let product := s.agentTimeout.nanos * s.agentRetries.toNat
    if product < 0x10000000000000000 * 1000000 then (product : Int) ≤ x.silence slot * 1000000
    else 0xFFFFFFFFFFFFFFFF ≤ x.silence slot := by
  have hle : min (s.agentTimeoutMillis * s.agentRetries.toNat) 0xFFFFFFFFFFFFFFFF ≤
      x.clock - (x.directory.contact slot).lastSeen := by
    simpa [Engine.isLost, Engine.idle, hx, evictionMillis, maxMillis] using hlost
  have hretries : 0 < s.agentRetries.toNat := by
    refine Nat.pos_of_ne_zero fun h => hretries (UInt32.toNat_inj.1 ?_)
    simpa using h
  have hmillis : 0 < s.agentTimeoutMillis * s.agentRetries.toNat :=
    Nat.mul_pos (by omega) hretries
  have hproduct : s.agentTimeout.nanos * s.agentRetries.toNat =
      s.agentTimeoutMillis * s.agentRetries.toNat * 1000000 := by
    rw [← hexact, Nat.mul_right_comm]
  intro product
  simp only [product, hproduct, Engine.silence]
  split <;> omega

/-- **When the timeouts mean what they say**: exactly if the agent timeout is a whole number of
milliseconds, no more of them than one word can say, and not zero. -/
theorem honoured_iff (hretries : s.agentRetries ≠ 0) : s.Honoured ↔
    0 < s.agentTimeout.nanos ∧ s.agentTimeout.nanos % 1000000 = 0 ∧
      s.agentTimeout.nanos < 0x10000000000000000 * 1000000 := by
  rw [← agentTimeoutMillis_mul_eq_iff]
  constructor
  · intro h
    by_contra hnot
    by_cases hexact : s.agentTimeoutMillis * 1000000 = s.agentTimeout.nanos
    · -- The timeout is zero, and somebody who was heard of in the future has been silent for long.
      have hzero : s.agentTimeout.nanos = 0 := by omega
      exact not_honoured_of_early 1 0 (by omega) (by omega) h
    · have hle := s.agentTimeoutMillis_mul_le
      exact not_honoured_of_early 0 s.agentTimeoutMillis (by omega)
        (by omega) h
  · rintro ⟨hpos, hexact⟩ f g e c log hs hpass
    constructor
    · rintro ⟨uuid, hmem⟩
      exact ping_of_exact hpos hexact hs (hpass.isQuiet_of_ne_nil (List.ne_nil_of_mem hmem))
    · intro hforgets
      exact eviction_of_exact hpos hexact hretries (Fabric.settings_pingFrom.trans hs)
        (hpass.isLost_of_forgets hforgets)

theorem honoured_iff_standard : standard.agentRetries ≠ 0 ∧ standard.Honoured :=
  ⟨by decide, (honoured_iff (by decide)).2 (by decide)⟩

/-- A timeout of one and a half milliseconds, one of `2 ^ 64` milliseconds and none at all. -/
theorem not_honoured :
    ¬Honoured ⟨⟨1500000, by decide⟩, 3, .ofMillis 5000, .inline⟩ ∧
      ¬Honoured ⟨⟨18446744073709551616000000, by decide⟩, 3, .ofMillis 5000, .inline⟩ ∧
      ¬Honoured ⟨⟨0, by decide⟩, 1, .ofMillis 5000, .inline⟩ :=
  ⟨not_honoured_of_early 0 1 (by decide) (by decide),
    not_honoured_of_early 0 0 (by decide) (by decide),
    not_honoured_of_early 100 50 (by decide) (by decide)⟩

end Settings

end Overlay
