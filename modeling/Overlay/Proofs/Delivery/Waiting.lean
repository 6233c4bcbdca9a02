import Mathlib.Data.List.Basic
import Overlay.Delivery.Waiting

/-!
# How waits end

A history can change its status only when a change is made, so looking at the start and at the
changes finds the first delivery there is (`History.firstDelivery?_eq_some_iff`). A wait on a
history can then be told step by step: it is over at once, or over at its deadline, or the same as
the wait that starts a millisecond later.

A wait on a receipt that is never delivered takes a time of its own (`Receipt.span`), and it gives
the gateways up at times that are known beforehand (`Receipt.ends`). Deliveries only make it
shorter.
-/

namespace Overlay

/-! ## Timers -/

theorem firingTime_mul_le (nanos : Nat) :
    firingTime nanos * nanosPerTick ≤ nanos + (nanosPerTick - 1) :=
  Nat.div_mul_le_self _ _

theorem firingTime_ticks_add (ticks nanos : Nat) :
    firingTime (ticks * nanosPerTick + nanos) = ticks + firingTime nanos := by
  simp only [firingTime, nanosPerTick]
  omega

theorem firingTime_eq_zero {nanos : Nat} : firingTime nanos = 0 ↔ nanos = 0 := by
  simp only [firingTime, nanosPerTick]
  omega

theorem le_timerTime (start nanos : Nat) : start ≤ timerTime start nanos :=
  Nat.le_add_right _ _

/-! ## Histories -/

namespace History

variable {h h' : History} {start deadline t : Nat}

/-- Where no change is made the status is the one before. -/
theorem statusAt_succ (hfree : ∀ c ∈ h.changes, c.1 ≠ t + 1) :
    h.statusAt (t + 1) = h.statusAt t := by
  refine List.foldl_ext _ _ _ fun s c hc => ?_
  have hne := hfree c hc
  have hiff : c.1 ≤ t + 1 ↔ c.1 ≤ t := by omega
  simp only [hiff]

/-- The status at a time is the one at the start or at the latest change since. -/
theorem exists_change (hle : start ≤ t) :
    ∃ u ∈ start :: h.changes.map Prod.fst, start ≤ u ∧ u ≤ t ∧ h.statusAt u = h.statusAt t := by
  obtain ⟨n, rfl⟩ := Nat.exists_eq_add_of_le hle
  induction n with
  | zero => exact ⟨start, List.mem_cons_self, Nat.le_refl _, Nat.le_refl _, rfl⟩
  | succ n ih =>
    by_cases hchange : ∃ c ∈ h.changes, c.1 = start + n + 1
    · obtain ⟨c, hc, hct⟩ := hchange
      exact ⟨start + n + 1, List.mem_cons_of_mem _ (hct ▸ List.mem_map_of_mem hc), by omega,
        Nat.le_refl _, rfl⟩
    · obtain ⟨u, hu, hstart, hut, hstatus⟩ := ih (Nat.le_add_right _ _)
      refine ⟨u, hu, hstart, by omega, ?_⟩
      rw [← Nat.add_assoc, statusAt_succ fun c hc hct => hchange ⟨c, hc, hct⟩, hstatus]

/-- The times that are looked at are times of delivery. -/
theorem mem_candidates :
    t ∈ ((start :: h.changes.map Prod.fst).filter fun t =>
      start ≤ t && t ≤ deadline && h.statusAt t == .delivered) ↔
    t ∈ start :: h.changes.map Prod.fst ∧ start ≤ t ∧ t ≤ deadline ∧
      h.statusAt t = .delivered := by
  rw [List.mem_filter]
  simp [and_assoc]

theorem firstDelivery?_eq_some_iff : h.firstDelivery? start deadline = some t ↔
    (start ≤ t ∧ t ≤ deadline ∧ h.statusAt t = .delivered) ∧
      ∀ u, start ≤ u → u < t → h.statusAt u ≠ .delivered := by
  simp only [firstDelivery?, List.min?_eq_some_iff, mem_candidates]
  constructor
  · rintro ⟨⟨-, hstart, hdeadline, ht⟩, hleast⟩
    refine ⟨⟨hstart, hdeadline, ht⟩, fun u hu hut hdelivered => ?_⟩
    -- A delivery at any time has begun at a candidate, and none of these comes before the least.
    obtain ⟨v, hv, hstartv, hvu, hstatus⟩ := exists_change (h := h) hu
    have htv := hleast v ⟨hv, hstartv, by omega, hstatus.trans hdelivered⟩
    omega
  · rintro ⟨⟨hstart, hdeadline, ht⟩, hfirst⟩
    refine ⟨⟨?_, hstart, hdeadline, ht⟩, fun u ⟨_, hu, _, hdelivered⟩ => ?_⟩
    · obtain ⟨v, hv, hstartv, hvt, hstatus⟩ := exists_change (h := h) hstart
      have hvt : v = t := by
        by_contra hne
        exact hfirst v hstartv (by omega) (hstatus.trans ht)
      exact hvt ▸ hv
    · by_contra hut
      exact hfirst u hu (by omega) hdelivered

theorem firstDelivery?_eq_none_iff : h.firstDelivery? start deadline = none ↔
    ∀ u, start ≤ u → u ≤ deadline → h.statusAt u ≠ .delivered := by
  constructor
  · intro hnone u hu hdeadline hdelivered
    rw [firstDelivery?, List.min?_eq_none_iff] at hnone
    obtain ⟨v, hv, hstartv, hvu, hstatus⟩ := exists_change (h := h) hu
    have hmem := mem_candidates.2
      ⟨hv, hstartv, Nat.le_trans hvu hdeadline, hstatus.trans hdelivered⟩
    rw [hnone] at hmem
    contradiction
  · intro hnever
    cases hfirst : h.firstDelivery? start deadline with
    | none => rfl
    | some t =>
      obtain ⟨⟨hstart, hdeadline, ht⟩, -⟩ := firstDelivery?_eq_some_iff.1 hfirst
      exact absurd ht (hnever t hstart hdeadline)

def watch (h : History) (start deadline : Nat) : WaitEnd :=
  match h.firstDelivery? start deadline with
  | some time => ⟨true, time⟩
  | none => ⟨false, deadline⟩

theorem watch_eq_of_first (hstart : start ≤ t) (hdeadline : t ≤ deadline)
    (ht : h.statusAt t = .delivered) (hfirst : ∀ u, start ≤ u → u < t → h.statusAt u ≠ .delivered) :
    h.watch start deadline = ⟨true, t⟩ := by
  rw [watch, firstDelivery?_eq_some_iff.2 ⟨⟨hstart, hdeadline, ht⟩, hfirst⟩]

theorem watch_eq_of_never (hnever : ∀ u, start ≤ u → u ≤ deadline → h.statusAt u ≠ .delivered) :
    h.watch start deadline = ⟨false, deadline⟩ := by
  rw [watch, firstDelivery?_eq_none_iff.2 hnever]

/-- A wait ends with the first delivery, or at the deadline if there is none. -/
theorem watch_cases (h : History) (start deadline : Nat) :
    (∃ t, start ≤ t ∧ t ≤ deadline ∧ h.statusAt t = .delivered ∧
      (∀ u, start ≤ u → u < t → h.statusAt u ≠ .delivered) ∧
      h.watch start deadline = ⟨true, t⟩) ∨
    (∀ u, start ≤ u → u ≤ deadline → h.statusAt u ≠ .delivered) ∧
      h.watch start deadline = ⟨false, deadline⟩ := by
  cases hfirst : h.firstDelivery? start deadline with
  | none =>
    have hnever := firstDelivery?_eq_none_iff.1 hfirst
    exact .inr ⟨hnever, watch_eq_of_never hnever⟩
  | some t =>
    obtain ⟨⟨hstart, hdeadline, ht⟩, hleast⟩ := firstDelivery?_eq_some_iff.1 hfirst
    exact .inl ⟨t, hstart, hdeadline, ht, hleast, watch_eq_of_first hstart hdeadline ht hleast⟩

theorem watch_of_delivered (hle : start ≤ deadline) (hnow : h.statusAt start = .delivered) :
    h.watch start deadline = ⟨true, start⟩ :=
  watch_eq_of_first (Nat.le_refl _) hle hnow fun _ hu hlt => absurd hlt (Nat.not_lt.2 hu)

theorem watch_at_deadline (hnow : h.statusAt t ≠ .delivered) : h.watch t t = ⟨false, t⟩ :=
  watch_eq_of_never fun _ hu hle => Nat.le_antisymm hle hu ▸ hnow

/-- A wait goes on as if it started later. -/
theorem watch_succ (hnow : h.statusAt start ≠ .delivered) :
    h.watch start deadline = h.watch (start + 1) deadline := by
  have hlater : ∀ {u}, start ≤ u → h.statusAt u = .delivered → start + 1 ≤ u := by
    intro u hu hdelivered
    refine Nat.lt_of_le_of_ne hu ?_
    rintro rfl
    exact hnow hdelivered
  rcases h.watch_cases (start + 1) deadline with
    ⟨t, hstart, hdeadline, ht, hfirst, heq⟩ | ⟨hnever, heq⟩
  · rw [heq]
    refine watch_eq_of_first (by omega) hdeadline ht fun u hu hut hdelivered => ?_
    exact hfirst u (hlater hu hdelivered) hut hdelivered
  · rw [heq]
    exact watch_eq_of_never fun u hu hle hdelivered =>
      hnever u (hlater hu hdelivered) hle hdelivered

/-- Only what happens from the start on matters. -/
theorem watch_congr (hsame : ∀ u, start ≤ u → h.statusAt u = h'.statusAt u) :
    h.watch start deadline = h'.watch start deadline := by
  rcases h'.watch_cases start deadline with ⟨t, hstart, hdeadline, ht, hfirst, heq⟩ | ⟨hnever, heq⟩
  · rw [heq]
    refine watch_eq_of_first hstart hdeadline ((hsame t hstart).trans ht) fun u hu hut => ?_
    rw [hsame u hu]
    exact hfirst u hu hut
  · rw [heq]
    refine watch_eq_of_never fun u hu hle => ?_
    rw [hsame u hu]
    exact hnever u hu hle

theorem le_time_watch (hle : start ≤ deadline) : start ≤ (h.watch start deadline).time := by
  rcases h.watch_cases start deadline with ⟨t, hstart, -, -, -, heq⟩ | ⟨-, heq⟩
  · rw [heq]
    exact hstart
  · rw [heq]
    exact hle

theorem time_watch_le : (h.watch start deadline).time ≤ deadline := by
  rcases h.watch_cases start deadline with ⟨t, -, hdeadline, -, -, heq⟩ | ⟨-, heq⟩
  · rw [heq]
    exact hdeadline
  · exact Nat.le_of_eq (congrArg WaitEnd.time heq)

theorem time_watch_of_not (hnot : (h.watch start deadline).delivered = false) :
    (h.watch start deadline).time = deadline := by
  rcases h.watch_cases start deadline with ⟨t, -, -, -, -, heq⟩ | ⟨-, heq⟩
  · rw [heq] at hnot
    contradiction
  · rw [heq]

end History

/-! ## Receipts -/

namespace Receipt

variable {σ τ υ : Type}

mutual

/-- For how long a receipt is waited on that is never delivered. -/
def span : Receipt σ → Nat → Nat
  | .gate _ _ _, nanos => firingTime nanos
  | .joint _ members, nanos => spanEach members (evenShare nanos members.length)

/-- For how long receipts are waited on one after the other that are never delivered. -/
def spanEach : List (Receipt σ) → Nat → Nat
  | [], _ => 0
  | r :: rest, nanos => r.span nanos + spanEach rest nanos

end

mutual

/-- When a wait from a start on gives up a gateway, as long as nothing is delivered. -/
def ends : Receipt σ → Nat → Nat → List Nat
  | .gate _ _ _, start, nanos => [timerTime start nanos]
  | .joint _ members, start, nanos => endsEach members start (evenShare nanos members.length)

/-- When waits on receipts one after the other give up a gateway. -/
def endsEach : List (Receipt σ) → Nat → Nat → List Nat
  | [], _, _ => []
  | r :: rest, start, nanos => r.ends start nanos ++ endsEach rest (start + r.span nanos) nanos

end

mutual

/-- What the gateways have that gave a receipt, one after the other. -/
def leaves : Receipt σ → List σ
  | .gate _ _ leaf => [leaf]
  | .joint _ members => leavesEach members

/-- What the gateways have that gave one of several receipts. -/
def leavesEach : List (Receipt σ) → List σ
  | [] => []
  | r :: rest => r.leaves ++ leavesEach rest

end

/-! ### Other leaves -/

@[simp]
theorem length_mapAll (f : σ → τ) (rs : List (Receipt σ)) : (mapAll f rs).length = rs.length := by
  induction rs with
  | nil => rfl
  | cons r rest ih => simp [mapAll, ih]

mutual

theorem map_map (f : σ → τ) (g : τ → υ) : ∀ r : Receipt σ, (r.map f).map g = r.map (g ∘ f)
  | .gate _ _ _ => rfl
  | .joint _ members => congrArg _ (mapAll_mapAll f g members)

theorem mapAll_mapAll (f : σ → τ) (g : τ → υ) :
    ∀ rs : List (Receipt σ), mapAll g (mapAll f rs) = mapAll (g ∘ f) rs
  | [] => rfl
  | r :: rest => by rw [mapAll, mapAll, mapAll, map_map f g r, mapAll_mapAll f g rest]

end

mutual

@[simp]
theorem span_map (f : σ → τ) : ∀ (r : Receipt σ) (nanos : Nat), (r.map f).span nanos = r.span nanos
  | .gate _ _ _, _ => rfl
  | .joint _ members, nanos => by
    rw [map, span, span, length_mapAll, spanEach_mapAll f members]

theorem spanEach_mapAll (f : σ → τ) :
    ∀ (rs : List (Receipt σ)) (nanos : Nat), spanEach (mapAll f rs) nanos = spanEach rs nanos
  | [], _ => rfl
  | r :: rest, nanos => by
    rw [mapAll, spanEach, spanEach, span_map f r, spanEach_mapAll f rest]

end

/-! ### Statuses -/

theorem merge_eq_delivered {a b : DeliveryStatus} :
    a.merge b = .delivered ↔ a = .delivered ∨ b = .delivered := by
  cases a <;> cases b <;> decide

mutual

/-- A receipt shows a delivery if a gateway does. -/
theorem status_eq_delivered (f : σ → DeliveryStatus) : ∀ r : Receipt σ,
    (r.map f).status = .delivered ↔ ∃ c ∈ r.leaves, f c = .delivered
  | .gate _ _ c => by simp [map, status, leaves]
  | .joint _ members => by
    rw [map, status, statusOf_eq_delivered, leaves]
    simp

theorem statusOf_eq_delivered (f : σ → DeliveryStatus) :
    ∀ (known : DeliveryStatus) (rs : List (Receipt σ)),
      statusOf known (mapAll f rs) = .delivered ↔
        known = .delivered ∨ ∃ c ∈ leavesEach rs, f c = .delivered
  | known, [] => by simp [mapAll, statusOf, leavesEach]
  | known, r :: rest => by
    have hr := status_eq_delivered f r
    simp only [mapAll, statusOf, leavesEach, List.mem_append, or_and_right, exists_or, ← hr]
    split
    · next hdelivered => simp [hdelivered]
    · next hnot =>
      rw [statusOf_eq_delivered f _ rest, merge_eq_delivered]
      simp [hnot]

end

/-! ### Waiting -/

theorem wait_gate (message : Uuid) (name : String) (h : History) (start nanos : Nat) :
    (gate message name h).wait start nanos = h.watch start (timerTime start nanos) := rfl

/-- A wait on a joint receipt, with or without members. -/
theorem wait_joint (message : Uuid) (members : List (Receipt History)) (start nanos : Nat) :
    (joint message members).wait start nanos =
      let last := waitEach members start (evenShare nanos members.length)
      if last.delivered then last
      else
        ⟨statusOf .unknown (mapAll (·.statusAt last.time) members) == .delivered, last.time⟩ := by
  cases members with
  | nil => rfl
  | cons r rest => rfl

theorem waitEach_cons (r : Receipt History) (rest : List (Receipt History)) (start nanos : Nat) :
    waitEach (r :: rest) start nanos =
      if (r.wait start nanos).delivered then r.wait start nanos
      else waitEach rest (r.wait start nanos).time nanos := rfl

/-- The end of a wait lies between its start and a latest time, which it reaches if nothing is
delivered. -/
structure Within (w : WaitEnd) (start latest : Nat) : Prop where
  start_le : start ≤ w.time
  time_le : w.time ≤ latest
  time_eq : w.delivered = false → w.time = latest

mutual

theorem wait_within : ∀ (r : Receipt History) (start nanos : Nat),
    Within (r.wait start nanos) start (start + r.span nanos)
  | .gate _ _ h, start, nanos =>
    ⟨History.le_time_watch (le_timerTime start nanos), History.time_watch_le,
      History.time_watch_of_not⟩
  | .joint message members, start, nanos => by
    have hlast := waitEach_within members start (evenShare nanos members.length)
    rw [wait_joint]
    simp only
    split
    · exact hlast
    · next hnot =>
      have htime := hlast.time_eq (by simpa using hnot)
      exact ⟨hlast.start_le, hlast.time_le, fun _ => htime⟩

theorem waitEach_within : ∀ (rs : List (Receipt History)) (start nanos : Nat),
    Within (waitEach rs start nanos) start (start + spanEach rs nanos)
  | [], start, _ => ⟨Nat.le_refl _, Nat.le_refl _, fun _ => rfl⟩
  | r :: rest, start, nanos => by
    have hfirst := wait_within r start nanos
    rw [waitEach_cons, spanEach]
    split
    · next hdelivered =>
      have htime := hfirst.time_le
      exact ⟨hfirst.start_le, by omega, fun hnot => absurd (hdelivered.symm.trans hnot) (by simp)⟩
    · next hnot =>
      have htime := hfirst.time_eq (by simpa using hnot)
      have hrest := waitEach_within rest (r.wait start nanos).time nanos
      rw [htime, Nat.add_assoc] at hrest
      rw [htime]
      exact ⟨Nat.le_trans (Nat.le_add_right _ _) hrest.start_le, hrest.time_le, hrest.time_eq⟩

end

mutual

/-- Nobody finds a delivery without a gateway that delivers. -/
theorem exists_of_wait (h : σ → History) : ∀ (r : Receipt σ) (start nanos : Nat),
    ((r.map h).wait start nanos).delivered = true →
      ∃ c ∈ r.leaves, ∃ t, (h c).statusAt t = .delivered
  | .gate _ _ c, start, nanos, hdelivered => by
    rw [map, wait_gate] at hdelivered
    rcases (h c).watch_cases start (timerTime start nanos) with ⟨t, -, -, ht, -, -⟩ | ⟨-, heq⟩
    · exact ⟨c, List.mem_singleton_self c, t, ht⟩
    · rw [heq] at hdelivered
      contradiction
  | .joint message members, start, nanos, hdelivered => by
    rw [map, wait_joint] at hdelivered
    simp only at hdelivered
    split at hdelivered
    · exact exists_of_waitEach h members _ _ hdelivered
    · rw [beq_iff_eq, mapAll_mapAll, statusOf_eq_delivered] at hdelivered
      obtain ⟨c, hc, ht⟩ := hdelivered.resolve_left (by decide)
      exact ⟨c, hc, _, ht⟩

theorem exists_of_waitEach (h : σ → History) : ∀ (rs : List (Receipt σ)) (start nanos : Nat),
    (waitEach (mapAll h rs) start nanos).delivered = true →
      ∃ c ∈ leavesEach rs, ∃ t, (h c).statusAt t = .delivered
  | r :: rest, start, nanos, hdelivered => by
    rw [mapAll, waitEach_cons] at hdelivered
    split at hdelivered
    · obtain ⟨c, hc, ht⟩ := exists_of_wait h r start nanos hdelivered
      exact ⟨c, List.mem_append_left _ hc, ht⟩
    · obtain ⟨c, hc, ht⟩ := exists_of_waitEach h rest _ nanos hdelivered
      exact ⟨c, List.mem_append_right _ hc, ht⟩

end

/-- A wait without a delivery takes its time. -/
theorem wait_of_never {h : σ → History} {r : Receipt σ} (start nanos : Nat)
    (hnever : ∀ c ∈ r.leaves, ∀ t, (h c).statusAt t ≠ .delivered) :
    (r.map h).wait start nanos = ⟨false, start + r.span nanos⟩ := by
  have hnot : ((r.map h).wait start nanos).delivered = false := by
    rw [Bool.eq_false_iff]
    intro hdelivered
    obtain ⟨c, hc, t, ht⟩ := exists_of_wait h r start nanos hdelivered
    exact hnever c hc t ht
  have htime := (wait_within (r.map h) start nanos).time_eq hnot
  rw [span_map] at htime
  rw [← htime, ← hnot]

/-! ### Only what happens from the start on matters -/

section Congr

variable {h h' : σ → History}

mutual

theorem wait_congr : ∀ (r : Receipt σ) {start : Nat} (nanos : Nat),
    (∀ c u, start ≤ u → (h c).statusAt u = (h' c).statusAt u) →
      (r.map h).wait start nanos = (r.map h').wait start nanos
  | .gate _ _ c, _, _, hsame => History.watch_congr fun u hu => hsame c u hu
  | .joint message members, start, nanos, hsame => by
    have hlast := waitEach_congr members (evenShare nanos members.length) hsame
    have hstart := (waitEach_within (mapAll h' members) start
      (evenShare nanos members.length)).start_le
    have hstatus : mapAll (·.statusAt (waitEach (mapAll h' members) start
          (evenShare nanos members.length)).time) (mapAll h members) =
        mapAll (·.statusAt (waitEach (mapAll h' members) start
          (evenShare nanos members.length)).time) (mapAll h' members) := by
      rw [mapAll_mapAll, mapAll_mapAll]
      congr 1
      funext c
      exact hsame c _ hstart
    rw [map, map, wait_joint, wait_joint, length_mapAll, length_mapAll, hlast]
    simp only [hstatus]

theorem waitEach_congr : ∀ (rs : List (Receipt σ)) {start : Nat} (nanos : Nat),
    (∀ c u, start ≤ u → (h c).statusAt u = (h' c).statusAt u) →
      waitEach (mapAll h rs) start nanos = waitEach (mapAll h' rs) start nanos
  | [], _, _, _ => rfl
  | r :: rest, start, nanos, hsame => by
    have hfirst := wait_congr r nanos hsame
    have hstart := (wait_within (r.map h') start nanos).start_le
    rw [mapAll, mapAll, waitEach_cons, waitEach_cons, hfirst,
      waitEach_congr rest nanos fun c u hu => hsame c u (Nat.le_trans hstart hu)]

end

end Congr

end Receipt

end Overlay
