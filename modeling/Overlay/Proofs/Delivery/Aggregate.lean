import Overlay.Proofs.Delivery.Runs

/-!
# Receipts from several gateways

The receipt of a message that was sent through several gateways has a cell for each of them. A wait
on it watches the cells one after the other, for slices of the same length, and sees what is
delivered in the cell whose turn it is (`Watched`). What was delivered out of turn is found in the
end.
-/

namespace Overlay

/-- What a gateway gave for a message: its name, and the cell in which it reports. -/
structure Gate where
  message : Uuid
  name : String
  cell : Nat

def Gate.receipt (g : Gate) : Receipt Nat :=
  .gate g.message g.name g.cell

def Receipt.ofGates (message : Uuid) (gates : List Gate) : Receipt Nat :=
  .joint message (gates.map Gate.receipt)

variable {h : Nat → History} {gates : List Gate} {g : Gate} {start nanos slice t : Nat}

/-- A message is delivered at a time by the gateway that is watched then: each has its slice. -/
def Watched (h : Nat → History) (gates : List Gate) (start slice t : Nat) : Prop :=
  ∃ i g, gates[i]? = some g ∧ start + i * slice ≤ t ∧ t ≤ start + (i + 1) * slice ∧
    (h g.cell).statusAt t = .delivered

theorem not_watched_nil : ¬Watched h [] start slice t := by
  rintro ⟨i, g, hg, -⟩
  simp at hg

/-- The first gateway has the first slice, and the others have the rest. -/
theorem watched_cons : Watched h (g :: gates) start slice t ↔
    (start ≤ t ∧ t ≤ start + slice ∧ (h g.cell).statusAt t = .delivered) ∨
      Watched h gates (start + slice) slice t := by
  constructor
  · rintro ⟨i, g', hg, hstart, hend, hdelivered⟩
    cases i with
    | zero =>
      obtain rfl := Option.some.inj hg
      exact .inl ⟨by omega, by omega, hdelivered⟩
    | succ i =>
      rw [Nat.succ_mul] at hstart
      rw [Nat.succ_mul (i + 1)] at hend
      exact .inr ⟨i, g', hg, by omega, by omega, hdelivered⟩
  · rintro (⟨hstart, hend, hdelivered⟩ | ⟨i, g', hg, hstart, hend, hdelivered⟩)
    · exact ⟨0, g, rfl, by omega, by omega, hdelivered⟩
    · refine ⟨i + 1, g', hg, ?_, ?_, hdelivered⟩
      · rw [Nat.succ_mul]
        omega
      · rw [Nat.succ_mul (i + 1)]
        omega

theorem Watched.start_le (hwatched : Watched h gates start slice t) : start ≤ t := by
  obtain ⟨i, g, -, hstart, -⟩ := hwatched
  exact Nat.le_trans (Nat.le_add_right _ _) hstart

namespace Receipt

/-- Each gateway gets the same time. -/
theorem spanEach_gates (gates : List Gate) (nanos : Nat) :
    spanEach (gates.map Gate.receipt) nanos = gates.length * firingTime nanos := by
  induction gates with
  | nil => rw [List.map_nil, spanEach, List.length_nil, Nat.zero_mul]
  | cons g rest ih =>
    rw [List.map_cons, spanEach, ih, List.length_cons, Nat.succ_mul, Nat.add_comm]
    rfl

/-- A gateway is given up when its slice has run out. -/
theorem mem_endsEach_gates : t ∈ endsEach (gates.map Gate.receipt) start nanos ↔
    ∃ i < gates.length, t = start + (i + 1) * firingTime nanos := by
  induction gates generalizing start with
  | nil => simp [endsEach]
  | cons g rest ih =>
    simp only [List.map_cons, endsEach, List.mem_append, ih, List.length_cons]
    change t ∈ [start + firingTime nanos] ∨ (∃ i < rest.length,
      t = start + firingTime nanos + (i + 1) * firingTime nanos) ↔ _
    rw [List.mem_singleton]
    constructor
    · rintro (rfl | ⟨i, hi, rfl⟩)
      · exact ⟨0, by omega, by omega⟩
      · refine ⟨i + 1, by omega, ?_⟩
        rw [Nat.succ_mul (i + 1)]
        omega
    · rintro ⟨i, hi, rfl⟩
      cases i with
      | zero => exact .inl (by omega)
      | succ i =>
        refine .inr ⟨i, by omega, ?_⟩
        rw [Nat.succ_mul (i + 1)]
        omega

theorem waitEach_cons_of_delivered {r : Receipt History} {rest : List (Receipt History)}
    (hr : r.wait start nanos = ⟨true, t⟩) : waitEach (r :: rest) start nanos = ⟨true, t⟩ := by
  simp only [waitEach_cons, hr, if_true]

theorem waitEach_cons_of_not {r : Receipt History} {rest : List (Receipt History)}
    (hr : r.wait start nanos = ⟨false, t⟩) :
    waitEach (r :: rest) start nanos = waitEach rest t nanos := by
  simp only [waitEach_cons, hr, Bool.false_eq_true, if_false]

theorem wait_receipt (h : Nat → History) (g : Gate) (start nanos : Nat) :
    (g.receipt.map h).wait start nanos = (h g.cell).watch start (start + firingTime nanos) := rfl

/-- Waiting on gateways one after the other ends with the first delivery by the one that is watched,
or when all slices have run out. -/
theorem waitEach_gates (h : Nat → History) (gates : List Gate) (start nanos : Nat) :
    (∃ t, Watched h gates start (firingTime nanos) t ∧
      (∀ u, Watched h gates start (firingTime nanos) u → t ≤ u) ∧
      waitEach (mapAll h (gates.map Gate.receipt)) start nanos = ⟨true, t⟩) ∨
    (∀ u, ¬Watched h gates start (firingTime nanos) u) ∧
      waitEach (mapAll h (gates.map Gate.receipt)) start nanos =
        ⟨false, start + gates.length * firingTime nanos⟩ := by
  induction gates generalizing start with
  | nil =>
    refine .inr ⟨fun _ => not_watched_nil, ?_⟩
    rw [List.length_nil, Nat.zero_mul]
    rfl
  | cons g rest ih =>
    simp only [watched_cons, List.map_cons, mapAll]
    rcases (h g.cell).watch_cases start (start + firingTime nanos) with
      ⟨t, hstart, hend, hdelivered, hfirst, hwatch⟩ | ⟨hnever, hwatch⟩ <;>
      rw [← wait_receipt] at hwatch
    · refine .inl ⟨t, .inl ⟨hstart, hend, hdelivered⟩, ?_, waitEach_cons_of_delivered hwatch⟩
      -- All other slices begin when the first one is over.
      rintro u (⟨hu, -, hudelivered⟩ | hu)
      · by_contra hlt
        exact hfirst u hu (by omega) hudelivered
      · exact Nat.le_trans hend hu.start_le
    · rw [waitEach_cons_of_not hwatch]
      have hfree : ∀ u, ¬(start ≤ u ∧ u ≤ start + firingTime nanos ∧
          (h g.cell).statusAt u = .delivered) :=
        fun u ⟨hu, hend, hdelivered⟩ => hnever u hu hend hdelivered
      rcases ih (start + firingTime nanos) with ⟨t, ht, hleast, heq⟩ | ⟨hnone, heq⟩
      · refine .inl ⟨t, .inr ht, fun u hu => ?_, heq⟩
        exact hleast u (hu.resolve_left (hfree u))
      · refine .inr ⟨fun u hu => hnone u (hu.resolve_left (hfree u)), ?_⟩
        rw [heq, List.length_cons, Nat.succ_mul]
        congr 1
        omega

theorem leavesEach_gates (gates : List Gate) :
    leavesEach (gates.map Gate.receipt) = gates.map Gate.cell := by
  induction gates with
  | nil => rfl
  | cons g rest ih =>
    rw [List.map_cons, leavesEach, ih]
    rfl

/-- What is delivered in the end, whether it was watched or not. -/
theorem statusOf_gates {f : Nat → DeliveryStatus} :
    statusOf .unknown (mapAll f (gates.map Gate.receipt)) = .delivered ↔
      ∃ g ∈ gates, f g.cell = .delivered := by
  simp [statusOf_eq_delivered, leavesEach_gates]

end Receipt

/-! ## Waits on such a receipt -/

namespace Lookout

variable {message : Uuid} {now : Nat} {cells : Nat → Cell} {xs : List Event} {w : Lookout}

/-- Nothing is reported when a slice ends. -/
theorem apart_gates (message : Uuid) (hlen : gates.length < 4294967296)
    (hslices : ∀ c, ∀ x ∈ changes c now xs, ∀ i < gates.length,
      x.1 ≠ now + (i + 1) * firingTime (nanos / gates.length)) :
    Apart ((Receipt.ofGates message gates).ends now nanos) now xs := by
  intro c x hx hmem
  rw [Receipt.ofGates, Receipt.ends, Receipt.evenShare, List.length_map, Nat.mod_eq_of_lt hlen,
    Receipt.mem_endsEach_gates] at hmem
  obtain ⟨i, hi, heq⟩ := hmem
  exact hslices c x hx i hi heq

/-- The wait on a receipt from several gateways, told from the histories. -/
theorem wait_ofGates (h : Nat → History) (hlen : gates.length < 4294967296) :
    ((Receipt.ofGates message gates).map h).wait now nanos =
      Receipt.conclude h (gates.map Gate.receipt) (Receipt.waitEach
        (Receipt.mapAll h (gates.map Gate.receipt)) now (nanos / gates.length)) := by
  rw [Receipt.ofGates, Receipt.wait_map_joint, Receipt.evenShare, List.length_map,
    Nat.mod_eq_of_lt hlen]

theorem span_ofGates (hlen : gates.length < 4294967296) :
    (Receipt.ofGates message gates).span nanos =
      gates.length * firingTime (nanos / gates.length) := by
  rw [Receipt.ofGates, Receipt.span, Receipt.evenShare, List.length_map, Nat.mod_eq_of_lt hlen,
    Receipt.spanEach_gates]

/-- What is told from the histories holds when the wait is over. -/
theorem conclude_gates {b : Bool} {slice : Nat} {last : WaitEnd}
    (hlast : (∃ t, Watched h gates now slice t ∧ (∀ u, Watched h gates now slice u → t ≤ u) ∧
        last = ⟨true, t⟩) ∨
      (∀ u, ¬Watched h gates now slice u) ∧ last = ⟨false, now + gates.length * slice⟩)
    (hend : Receipt.conclude h (gates.map Gate.receipt) last = ⟨b, t⟩) :
    b = true ∧ Watched h gates now slice t ∧ (∀ u, Watched h gates now slice u → t ≤ u) ∨
      (∀ u, ¬Watched h gates now slice u) ∧ t = now + gates.length * slice ∧
        (b = true ↔ ∃ g ∈ gates, (h g.cell).statusAt t = .delivered) := by
  rcases hlast with ⟨u, hwatched, hfirst, rfl⟩ | ⟨hnone, rfl⟩
  · obtain ⟨rfl, rfl⟩ := WaitEnd.mk.inj (hend.symm.trans (if_pos rfl))
    exact .inl ⟨rfl, hwatched, hfirst⟩
  · obtain ⟨rfl, rfl⟩ := WaitEnd.mk.inj (hend.symm.trans (if_neg (by simp)))
    refine .inr ⟨hnone, rfl, ?_⟩
    rw [beq_iff_eq, Receipt.statusOf_gates]

/-- A wait on a receipt from several gateways watches them one after the other, each for its slice
of the time. It is over when the one that is watched has delivered, for the first time, or with the
last slice, and then every delivery that is still there counts. -/
theorem aggregate_finds_deliveries (hlen : gates.length < 4294967296)
    (hslices : ∀ c, ∀ x ∈ changes c now xs, ∀ i < gates.length,
      x.1 ≠ now + (i + 1) * firingTime (nanos / gates.length))
    (hrun : (call (Receipt.ofGates message gates) nanos now cells).run? xs = some w) :
    let slice := firingTime (nanos / gates.length)
    let finish := now + gates.length * slice
    let h := history cells now xs
    w.now ≤ finish ∧
    (∃ ys w' b, w.run? ys = some w' ∧ w'.poll = .ready b ∧ ∀ c, changes c w.now ys = []) ∧
    ∀ b, w.poll = .ready b →
      ((Receipt.ofGates message gates).map h).wait now nanos = ⟨b, w.now⟩ ∧
      (b = true ∧ Watched h gates now slice w.now ∧
          (∀ u, Watched h gates now slice u → w.now ≤ u) ∨
        (∀ u, ¬Watched h gates now slice u) ∧ w.now = finish ∧
          (b = true ↔ ∃ g ∈ gates, (h g.cell).statusAt w.now = .delivered)) ∧
      (b = false →
        ((Receipt.ofGates message gates).map fun c => (w.cells c).status).status ≠ .delivered) ∧
      ∀ g ∈ gates, ∀ t ≤ finish, (∀ u, t ≤ u → u ≤ w.now → (h g.cell).statusAt u = .delivered) →
        b = true := by
  intro slice finish h
  refine ⟨?_, ?_, fun b hready => ?_⟩
  · have hle := (run_lasts hrun).1
    rwa [span_ofGates hlen] at hle
  · obtain ⟨ys, w', b, hys, hready, hnone⟩ :=
      exists_ready ((call_lasts (Receipt.ofGates message gates) nanos now cells).run hrun)
    exact ⟨ys, w', b, hys, hready, hnone⟩
  have hwait := run_eq_wait (apart_gates message hlen hslices) hrun hready
  have hcases := conclude_gates (Receipt.waitEach_gates h gates now (nanos / gates.length))
    ((wait_ofGates h hlen).symm.trans hwait)
  refine ⟨hwait, hcases, fun hfalse => ?_, fun g hg t ht hdelivered => ?_⟩
  · obtain ⟨hb, -⟩ | ⟨-, hnow, hiff⟩ := hcases
    · exact absurd (hfalse.symm.trans hb) (by simp)
    · have hcells : (fun c => (w.cells c).status) = fun c => (h c).statusAt w.now :=
        funext fun c => (statusAt_of_run hrun c).symm
      rw [hcells]
      intro hstatus
      exact absurd (hfalse.symm.trans (hiff.2 (Receipt.statusOf_gates.1 hstatus))) (by simp)
  · obtain ⟨hb, -⟩ | ⟨-, hnow, hiff⟩ := hcases
    · exact hb
    · exact hiff.2 ⟨g, hg, hdelivered w.now (hnow ▸ ht) (Nat.le_refl _)⟩

/-- The second of two gateways delivers while the first one is watched, and that is found when its
slice begins. -/
theorem aggregate_finds_deliveries_early :
    ∃ w, (call (Receipt.ofGates default [⟨default, "a", 0⟩, ⟨default, "b", 1⟩]) 4000000 0
        fun _ => ⟨.pending, 0⟩).run? [.tick, .report 1 .delivered, .tick, .poll] = some w ∧
      w.poll = .ready true ∧
      ((Receipt.ofGates default [⟨default, "a", 0⟩, ⟨default, "b", 1⟩]).map
        (history (fun _ => ⟨.pending, 0⟩) 0 [.tick, .report 1 .delivered, .tick, .poll])).wait
          0 4000000 = ⟨true, w.now⟩ := by
  refine ⟨_, rfl, rfl, ?_⟩
  refine ((aggregate_finds_deliveries (by decide) (fun c x hx i _ => ?_) rfl).2.2 true rfl).1
  have hone : x.1 = 1 := by
    simp only [changes] at hx
    split at hx
    · rw [List.mem_singleton.1 hx]
    · exact absurd hx List.not_mem_nil
  have htwo : firingTime (4000000 / 2) = 2 := by decide
  simp only [List.length_cons, List.length_nil, Nat.zero_add, Nat.reduceAdd, htwo, hone]
  omega

end Lookout

end Overlay
