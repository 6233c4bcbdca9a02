import Overlay.Proofs.Delivery.Aggregate

/-!
# How long a wait can take

A caller gives a budget, and every gateway gets a share of it that is cut to nanoseconds, but its
timer fires at a whole millisecond. So each gateway can add almost a millisecond
(`Receipt.span_mul_le`), and how much a wait can take altogether follows from its receipt
(`Receipt.span`). It is not the budget: two gateways need two milliseconds for a budget of one.
-/

namespace Overlay

namespace Receipt

variable {σ : Type}

mutual

/-- All counts of members are kept in 32 bits. -/
def Fits : Receipt σ → Prop
  | .gate _ _ _ => True
  | .joint _ members => members.length < 4294967296 ∧ FitsEach members

def FitsEach : List (Receipt σ) → Prop
  | [] => True
  | r :: rest => r.Fits ∧ FitsEach rest

end

mutual

/-- Shares are rounded down, and each timer is rounded up by less than a millisecond. -/
theorem span_mul_le : ∀ (r : Receipt σ) (nanos : Nat), r.Fits →
    r.span nanos * nanosPerTick ≤ nanos + r.leaves.length * (nanosPerTick - 1)
  | .gate _ _ _, nanos, _ => by
    have hle := firingTime_mul_le nanos
    rw [span, leaves, List.length_singleton]
    omega
  | .joint _ members, nanos, ⟨hlen, hfits⟩ => by
    have hle := spanEach_mul_le members (evenShare nanos members.length) hfits
    have hshare : members.length * evenShare nanos members.length ≤ nanos := by
      rw [evenShare, Nat.mod_eq_of_lt hlen]
      exact Nat.mul_div_le _ _
    rw [span, leaves]
    omega

theorem spanEach_mul_le : ∀ (rs : List (Receipt σ)) (nanos : Nat), FitsEach rs →
    spanEach rs nanos * nanosPerTick ≤
      rs.length * nanos + (leavesEach rs).length * (nanosPerTick - 1)
  | [], _, _ => by simp [spanEach]
  | r :: rest, nanos, ⟨hr, hrest⟩ => by
    have hfirst := span_mul_le r nanos hr
    have hothers := spanEach_mul_le rest nanos hrest
    rw [spanEach, leavesEach, List.length_cons, List.length_append, Nat.add_mul, Nat.succ_mul,
      Nat.add_mul]
    omega

end

/-- No wait takes a millisecond per gateway more than its budget. -/
theorem span_le {r : Receipt σ} (hfits : r.Fits) (millis : Nat) :
    r.span (millis * nanosPerTick) ≤
      millis + r.leaves.length * (nanosPerTick - 1) / nanosPerTick := by
  have hle := span_mul_le r (millis * nanosPerTick) hfits
  rw [← Nat.mul_add_div (by decide), Nat.le_div_iff_mul_le (by decide)]
  rwa [Nat.mul_comm nanosPerTick]

/-- Gateways that share a budget keep to it if what is left over of it in whole milliseconds is less
than a nanosecond for each. -/
theorem span_ofGates_le_iff {message : Uuid} {gates : List Gate} (hne : gates ≠ [])
    (hlen : gates.length < 4294967296) (millis : Nat) :
    (ofGates message gates).span (millis * nanosPerTick) ≤ millis ↔
      millis % gates.length * nanosPerTick < gates.length := by
  have hpos : 0 < gates.length := List.length_pos_iff.2 hne
  generalize hcount : gates.length = count at hlen hpos ⊢
  have hdiv : millis * nanosPerTick / count =
      millis / count * nanosPerTick + millis % count * nanosPerTick / count := by
    conv_lhs => rw [← Nat.div_add_mod millis count]
    rw [Nat.add_mul, Nat.mul_assoc, Nat.mul_add_div hpos]
  have hwhole := Nat.div_add_mod millis count
  have hrest := Nat.mod_lt millis hpos
  rw [Lookout.span_ofGates (hcount ▸ hlen), hcount, hdiv, firingTime_ticks_add, Nat.mul_add]
  by_cases hsmall : millis % count * nanosPerTick < count
  · rw [Nat.div_eq_of_lt hsmall, firingTime_eq_zero.2 rfl]
    exact iff_of_true (by omega) hsmall
  · refine iff_of_false (fun hle => ?_) hsmall
    have hshare : 0 < millis % count * nanosPerTick / count :=
      Nat.div_pos (Nat.not_lt.1 hsmall) hpos
    have hfire := Nat.pos_of_ne_zero (mt firingTime_eq_zero.1 (Nat.ne_of_gt hshare))
    have hmul := Nat.mul_le_mul_left count hfire
    omega

end Receipt

namespace Lookout

variable {r : Receipt Nat}

/-- A wait that takes all the time there is: the gateways never report. -/
theorem exists_longest (r : Receipt Nat) (nanos now : Nat) : ∃ xs w,
    (call r nanos now fun _ => ⟨.pending, 0⟩).run? xs = some w ∧ w.now = now + r.span nanos := by
  obtain ⟨xs, w, b, hrun, hready, hnone⟩ :=
    exists_ready (call_lasts r nanos now fun _ => ⟨.pending, 0⟩)
  have hnone : ∀ c, changes c now xs = [] := hnone
  have hapart : Apart (r.ends now nanos) now xs := by
    intro c x hx
    rw [hnone c] at hx
    contradiction
  have hnever : ∀ c ∈ r.leaves, ∀ t,
      (history (fun _ => ⟨.pending, 0⟩) now xs c).statusAt t ≠ .delivered := by
    intro c _ t
    simp [history, hnone c, History.statusAt]
  have hwait := (run_eq_wait hapart hrun hready).symm.trans (Receipt.wait_of_never now nanos hnever)
  exact ⟨xs, w, hrun, (WaitEnd.mk.inj hwait).2⟩

/-- A wait takes at most the time of its receipt, and that is the budget and less than a millisecond
for every gateway. There are waits that take it all, so that the budget is kept by all waits only if
the receipt's time is within it: for gateways that share it, if what is left over of it in whole
milliseconds is less than a nanosecond for each. -/
theorem budget_kept_iff (hfits : r.Fits) (millis : Nat) :
    (∀ now cells xs w, (call r (millis * nanosPerTick) now cells).run? xs = some w →
      w.now ≤ now + millis + r.leaves.length * (nanosPerTick - 1) / nanosPerTick) ∧
    ((∀ now cells xs w, (call r (millis * nanosPerTick) now cells).run? xs = some w →
        w.now ≤ now + millis) ↔ r.span (millis * nanosPerTick) ≤ millis) ∧
    ((∀ now (h : Nat → History),
        ((r.map h).wait now (millis * nanosPerTick)).time ≤ now + millis) ↔
      r.span (millis * nanosPerTick) ≤ millis) ∧
    ∀ message gates, gates ≠ [] → r = Receipt.ofGates message gates →
      (r.span (millis * nanosPerTick) ≤ millis ↔
        millis % gates.length * nanosPerTick < gates.length) := by
  refine ⟨fun now cells xs w hrun => ?_, ⟨fun hkept => ?_, fun hspan now cells xs w hrun => ?_⟩,
    ⟨fun hkept => ?_, fun hspan now h => ?_⟩, ?_⟩
  · have hle := (run_lasts hrun).1
    have hspan := Receipt.span_le hfits millis
    omega
  · obtain ⟨xs, w, hrun, hnow⟩ := exists_longest r (millis * nanosPerTick) 0
    have hle := hkept 0 _ xs w hrun
    omega
  · have hle := (run_lasts hrun).1
    omega
  · have hle := hkept 0 fun _ => ⟨.pending, []⟩
    rw [Receipt.wait_of_never 0 _ (fun _ _ _ => by simp [History.statusAt])] at hle
    simpa using hle
  · have hle := (Receipt.wait_within (r.map h) now (millis * nanosPerTick)).time_le
    rw [Receipt.span_map] at hle
    omega
  · rintro message gates hne rfl
    have hlen := hfits.1
    rw [List.length_map] at hlen
    exact Receipt.span_ofGates_le_iff hne hlen millis

/-- Three gateways and seven milliseconds. -/
theorem budget_kept_iff_three : ¬∀ now (h : Nat → History),
    (((Receipt.ofGates default [⟨default, "a", 0⟩, ⟨default, "b", 1⟩, ⟨default, "c", 2⟩]).map
      h).wait now (7 * nanosPerTick)).time ≤ now + 7 := by
  have hfits : (Receipt.ofGates default
      [⟨default, "a", 0⟩, ⟨default, "b", 1⟩, ⟨default, "c", 2⟩]).Fits :=
    ⟨by decide, trivial, trivial, trivial, trivial⟩
  rw [(budget_kept_iff hfits 7).2.2.1]
  decide

/-- Two gateways that never report take two milliseconds for a budget of one. -/
theorem not_budget_kept : ¬∀ (r : Receipt Nat) (millis now : Nat) (h : Nat → History), r.Fits →
    ((r.map h).wait now (millis * nanosPerTick)).time ≤ now + millis := by
  intro hkept
  have hle := hkept (Receipt.ofGates default [⟨default, "a", 0⟩, ⟨default, "b", 1⟩]) 1 0
    (fun _ => ⟨.pending, []⟩) ⟨by decide, trivial, trivial, trivial⟩
  exact absurd hle (by decide)

end Lookout

end Overlay
