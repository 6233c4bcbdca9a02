import Mathlib.Data.Finset.Lattice.Fold
import Overlay.Proofs.Delivery.Waiting

/-!
# What a tree of receipts says

A joint receipt asks its members one after the other and stops at the first that is delivered. What
comes out does not show that: the status of a tree is the highest status of its leaves, so how the
leaves are ordered, grouped or repeated makes no difference to it (`status_eq_sup`). The name is that
of the leftmost leaf which is delivered. As long as none is, the names of all leaves are joined; an
empty receipt inside would add a plus sign of its own.
-/

namespace Overlay

namespace DeliveryStatus

theorem rank_injective : Function.Injective rank := by
  intro a b h
  cases a <;> cases b <;> first | rfl | contradiction

/-- Statuses are ordered by their precedence in a merge: unknown, failed, pending, delivered. -/
instance : LinearOrder DeliveryStatus :=
  .lift' rank rank_injective

instance : OrderBot DeliveryStatus where
  bot := .unknown
  bot_le := fun a => Nat.zero_le a.rank

theorem le_delivered (a : DeliveryStatus) : a ≤ .delivered := by
  cases a <;> decide

theorem bot_eq_unknown : (⊥ : DeliveryStatus) = .unknown := rfl

theorem merge_eq_sup (a b : DeliveryStatus) : a.merge b = a ⊔ b := by
  cases a <;> cases b <;> decide

end DeliveryStatus

namespace Receipt

variable {σ : Type} {r q : Receipt DeliveryStatus} {rs : List (Receipt DeliveryStatus)}
  {g : String × DeliveryStatus} {known : DeliveryStatus}

/-! ## Statuses -/

mutual

/-- **The status of a tree is the highest status of its leaves**, unknown if it has none. -/
theorem status_eq_sup : ∀ r : Receipt DeliveryStatus, r.status = r.leaves.toFinset.sup id
  | .gate _ _ state => by simp [status, leaves]
  | .joint _ members => by
    rw [status, leaves, statusOf_eq_sup, ← DeliveryStatus.bot_eq_unknown, bot_sup_eq]

theorem statusOf_eq_sup : ∀ (known : DeliveryStatus) (rs : List (Receipt DeliveryStatus)),
    statusOf known rs = known ⊔ (leavesEach rs).toFinset.sup id
  | known, [] => by simp [statusOf, leavesEach]
  | known, r :: rest => by
    have hr := status_eq_sup r
    rw [statusOf, leavesEach, List.toFinset_append, Finset.sup_union, ← hr]
    split
    · next hdelivered =>
      -- Nothing is above it, so the rest need not be asked.
      have htop : ∀ s : DeliveryStatus, s ≤ r.status := by
        rw [hdelivered]
        exact DeliveryStatus.le_delivered
      rw [← sup_assoc, sup_of_le_left (htop _ |>.trans le_sup_right), sup_of_le_right (htop known),
        hdelivered]
    · rw [statusOf_eq_sup _ rest, DeliveryStatus.merge_eq_sup, sup_assoc]

end

/-- Only which statuses the leaves have makes a difference, and more of them never lower the status.
-/
theorem status_le_of_leaves (h : r.leaves ⊆ q.leaves) : r.status ≤ q.status := by
  rw [status_eq_sup, status_eq_sup]
  refine Finset.sup_mono fun s hs => ?_
  exact List.mem_toFinset.2 (h (List.mem_toFinset.1 hs))

theorem status_congr_leaves (h : ∀ s, s ∈ r.leaves ↔ s ∈ q.leaves) : r.status = q.status :=
  le_antisymm (status_le_of_leaves fun s hs => (h s).1 hs)
    (status_le_of_leaves fun s hs => (h s).2 hs)

theorem leavesEach_eq (rs : List (Receipt σ)) : leavesEach rs = rs.flatMap leaves := by
  induction rs with
  | nil => rfl
  | cons r rest ih => rw [leavesEach, ih, List.flatMap_cons]

theorem mem_leaves_joint {message : Uuid} {members : List (Receipt σ)} {c : σ} :
    c ∈ (joint message members).leaves ↔ ∃ r ∈ members, c ∈ r.leaves := by
  rw [leaves, leavesEach_eq, List.mem_flatMap]

/-- Members may be put in another order, left out where they are repeated, and brought in. -/
theorem status_joint_le {message message' : Uuid} {members members' : List (Receipt DeliveryStatus)}
    (h : members ⊆ members') : (joint message members).status ≤ (joint message' members').status := by
  refine status_le_of_leaves fun s hs => ?_
  obtain ⟨r, hr, hs⟩ := mem_leaves_joint.1 hs
  exact mem_leaves_joint.2 ⟨r, h hr, hs⟩

theorem status_joint_congr {message message' : Uuid}
    {members members' : List (Receipt DeliveryStatus)} (h : ∀ r, r ∈ members ↔ r ∈ members') :
    (joint message members).status = (joint message' members').status :=
  le_antisymm (status_joint_le fun r hr => (h r).1 hr) (status_joint_le fun r hr => (h r).2 hr)

/-- Members may be grouped. -/
theorem status_joint_group (message inner : Uuid) (before group after : List (Receipt DeliveryStatus)) :
    (joint message (before ++ joint inner group :: after)).status =
      (joint message (before ++ group ++ after)).status := by
  refine status_congr_leaves fun s => ?_
  simp [leaves, leavesEach_eq]

mutual

theorem leaves_map (f : σ → τ) : ∀ r : Receipt σ, (r.map f).leaves = r.leaves.map f
  | .gate _ _ _ => rfl
  | .joint _ members => leavesEach_mapAll f members

theorem leavesEach_mapAll (f : σ → τ) :
    ∀ rs : List (Receipt σ), leavesEach (mapAll f rs) = (leavesEach rs).map f
  | [] => rfl
  | r :: rest => by
    rw [mapAll, leavesEach, leavesEach, leaves_map f r, leavesEach_mapAll f rest, List.map_append]

end

/-- To raise what leaves have never lowers the status. -/
theorem status_map_le {f f' : σ → DeliveryStatus} {t : Receipt σ} (h : ∀ c ∈ t.leaves, f c ≤ f' c) :
    (t.map f).status ≤ (t.map f').status := by
  rw [status_eq_sup, status_eq_sup, leaves_map, leaves_map]
  refine Finset.sup_le fun s hs => ?_
  obtain ⟨c, hc, rfl⟩ := List.mem_map.1 (List.mem_toFinset.1 hs)
  exact (h c hc).trans (Finset.le_sup (List.mem_toFinset.2 (List.mem_map_of_mem hc)) (f := id))

/-! ## Names -/

mutual

/-- The gateways that gave a receipt, from left to right, with what they have. -/
def gates : Receipt σ → List (String × σ)
  | .gate _ name leaf => [(name, leaf)]
  | .joint _ members => gatesEach members

def gatesEach : List (Receipt σ) → List (String × σ)
  | [] => []
  | r :: rest => r.gates ++ gatesEach rest

end

mutual

def filled : Receipt σ → Bool
  | .gate _ _ _ => true
  | .joint _ members => !members.isEmpty && filledEach members

/-- Whether no joint receipt in any of several trees is empty. -/
def filledEach : List (Receipt σ) → Bool
  | [] => true
  | r :: rest => r.filled && filledEach rest

end

mutual

theorem map_snd_gates : ∀ r : Receipt σ, r.gates.map Prod.snd = r.leaves
  | .gate _ _ _ => rfl
  | .joint _ members => map_snd_gatesEach members

theorem map_snd_gatesEach : ∀ rs : List (Receipt σ), (gatesEach rs).map Prod.snd = leavesEach rs
  | [] => rfl
  | r :: rest => by
    rw [gatesEach, leavesEach, List.map_append, map_snd_gates r, map_snd_gatesEach rest]

end

/-- A tree is delivered if a leaf is. -/
theorem status_eq_delivered_iff : r.status = .delivered ↔ .delivered ∈ r.leaves := by
  constructor
  · intro h
    by_contra hnone
    have hle : r.status ≤ .pending := by
      rw [status_eq_sup]
      refine Finset.sup_le fun s hs => ?_
      have hne : s ≠ .delivered := fun heq => hnone (heq ▸ List.mem_toFinset.1 hs)
      cases s <;> first | decide | contradiction
    rw [h] at hle
    exact absurd hle (by decide)
  · intro h
    refine le_antisymm (DeliveryStatus.le_delivered _) ?_
    rw [status_eq_sup]
    exact Finset.le_sup (List.mem_toFinset.2 h) (f := id)

theorem find?_gates_eq_none_iff :
    r.gates.find? (·.2 = .delivered) = none ↔ r.status ≠ .delivered := by
  rw [ne_eq, status_eq_delivered_iff, ← map_snd_gates, List.find?_eq_none]
  simp only [decide_eq_true_eq, List.mem_map, not_exists, not_and]

mutual

/-- The name of a tree that is delivered is that of its leftmost delivered leaf. -/
theorem gateway_of_find? : ∀ {r : Receipt DeliveryStatus} {g : String × DeliveryStatus},
    r.gates.find? (·.2 = .delivered) = some g → r.gateway = g.1
  | .gate _ name state, g, h => by
    have hg : g ∈ [(name, state)] := List.mem_of_find?_eq_some h
    rw [List.mem_singleton.1 hg, gateway]
  | .joint _ members, g, h => by
    rw [gates] at h
    rw [gateway, deliverer?_eq members, h]
    rfl

theorem deliverer?_eq : ∀ rs : List (Receipt DeliveryStatus),
    deliverer? rs = ((gatesEach rs).find? (·.2 = .delivered)).map Prod.fst
  | [] => rfl
  | r :: rest => by
    rw [deliverer?, gatesEach, List.find?_append]
    cases hfirst : r.gates.find? (·.2 = .delivered) with
    | none => rw [if_neg (find?_gates_eq_none_iff.1 hfirst), deliverer?_eq rest, Option.none_or]
    | some g =>
      have hdelivered : r.status = .delivered := by
        by_contra hnot
        rw [find?_gates_eq_none_iff.2 hnot] at hfirst
        contradiction
      rw [if_pos hdelivered, gateway_of_find? hfirst, Option.some_or, Option.map_some]

end

mutual

theorem gates_ne_nil : ∀ {r : Receipt σ}, r.filled = true → r.gates ≠ []
  | .gate _ _ _, _ => List.cons_ne_nil _ _
  | .joint _ [], h => by simp [filled] at h
  | .joint _ (r :: rest), h => by
    have hr : r.filled = true := by
      simp only [filled, filledEach, Bool.and_eq_true] at h
      exact h.2.1
    rw [gates, gatesEach]
    exact List.append_ne_nil_of_left_ne_nil (gates_ne_nil hr) _

end

theorem filledEach_iff {rs : List (Receipt σ)} :
    filledEach rs = true ↔ ∀ r ∈ rs, r.filled = true := by
  induction rs with
  | nil => simp [filledEach]
  | cons r rest ih => simp [filledEach, ih]

theorem gatesEach_ne_nil {rs : List (Receipt σ)} (hne : rs ≠ []) (h : filledEach rs = true) :
    gatesEach rs ≠ [] :=
  gates_ne_nil (r := .joint default rs) (by simp [filled, hne, h])

theorem find?_eq_none_of_ne {gs : List (String × DeliveryStatus)}
    (h : ∀ g ∈ gs, g.2 ≠ .delivered) : gs.find? (·.2 = .delivered) = none :=
  List.find?_eq_none.2 fun g hg => by simpa using h g hg

mutual

/-- The name of a tree of which no leaf is delivered, where no joint receipt is empty. -/
theorem gateway_of_undelivered : ∀ {r : Receipt DeliveryStatus},
    r.filled = true → (∀ g ∈ r.gates, g.2 ≠ .delivered) →
      r.gateway = "+".intercalate (r.gates.map Prod.fst)
  | .gate _ _ _, _, _ => by simp [gateway, gates]
  | .joint _ members, hfilled, hnone => by
    simp only [filled, Bool.and_eq_true] at hfilled
    rw [gates] at hnone ⊢
    rw [gateway, deliverer?_eq, find?_eq_none_of_ne hnone]
    exact intercalate_gateways hfilled.2 hnone

theorem intercalate_gateways : ∀ {rs : List (Receipt DeliveryStatus)},
    filledEach rs = true → (∀ g ∈ gatesEach rs, g.2 ≠ .delivered) →
      "+".intercalate (gateways rs) = "+".intercalate ((gatesEach rs).map Prod.fst)
  | [], _, _ => rfl
  | r :: rest, hfilled, hnone => by
    simp only [filledEach, Bool.and_eq_true] at hfilled
    have hfirst := gateway_of_undelivered hfilled.1 fun g hg =>
      hnone g (List.mem_append_left _ hg)
    have hrest := intercalate_gateways hfilled.2 fun g hg => hnone g (List.mem_append_right _ hg)
    rw [gateways, gatesEach, List.map_append, hfirst]
    cases rest with
    | nil => simp [gateways, gatesEach]
    | cons next rest =>
      have hleft : r.gates.map Prod.fst ≠ [] := by simpa using gates_ne_nil hfilled.1
      have hright : (gatesEach (next :: rest)).map Prod.fst ≠ [] := by
        simpa using gatesEach_ne_nil (List.cons_ne_nil _ _) hfilled.2
      have hnames : gateways (next :: rest) ≠ [] := by simp [gateways]
      rw [String.intercalate_cons_of_ne_nil hnames, hrest,
        String.intercalate_append_of_ne_nil hleft hright]

end

/-! ## Both together -/

/-- **The aggregate is read off the leaves.** The status of a tree of receipts is the highest status
of its leaves, unknown if there is none. So the order of members, their grouping and their repetition
make no difference, and the status never falls when a member is added anywhere or when leaves are
raised. The tree has the name of the leftmost leaf that is delivered; if there is none and no receipt
inside is empty, it has the names of all leaves from left to right, with plus signs between them. -/
theorem aggregate_of_leaves (r : Receipt DeliveryStatus) :
    r.status = r.leaves.toFinset.sup id ∧
    (∀ (message : Uuid) (members members' : List (Receipt DeliveryStatus)),
      members.Perm members' →
        (joint message members).status = (joint message members').status) ∧
    (∀ (message inner : Uuid) (before group after : List (Receipt DeliveryStatus)),
      (joint message (before ++ joint inner group :: after)).status =
        (joint message (before ++ group ++ after)).status) ∧
    (∀ (message : Uuid) (members : List (Receipt DeliveryStatus)), r ∈ members →
      (joint message (r :: members)).status = (joint message members).status) ∧
    (∀ q : Receipt DeliveryStatus, r.leaves ⊆ q.leaves → r.status ≤ q.status) ∧
    (∀ t : Receipt (DeliveryStatus × DeliveryStatus), t.map Prod.fst = r →
      (∀ c ∈ t.leaves, c.1 ≤ c.2) → r.status ≤ (t.map Prod.snd).status) ∧
    (∀ g : String × DeliveryStatus,
      r.gates.find? (·.2 = .delivered) = some g → r.gateway = g.1) ∧
    (r.gates.find? (·.2 = .delivered) = none → (∀ m ∈ r.members, m.filled = true) →
      r.gateway = "+".intercalate (r.gates.map Prod.fst)) := by
  refine ⟨r.status_eq_sup, fun message members members' h => ?_, status_joint_group,
    fun message members h => ?_, fun q => status_le_of_leaves, ?_, fun g => gateway_of_find?, ?_⟩
  · exact status_joint_congr fun s => h.mem_iff
  · exact status_joint_congr fun s => by simpa using fun hs => hs ▸ h
  · rintro t rfl hraised
    exact status_map_le hraised
  · intro hnone hfilled
    cases r with
    | gate message name state => simp [gateway, gates]
    | joint message members =>
      rw [gates] at hnone ⊢
      rw [gateway, deliverer?_eq, hnone]
      refine intercalate_gateways (filledEach_iff.2 hfilled) fun g hg => ?_
      simpa using List.find?_eq_none.1 hnone g hg

/-- A receipt of two, the second of which is a receipt of two in turn. -/
def nested (state : DeliveryStatus) : Receipt DeliveryStatus :=
  .joint default [.gate default "lan" .failed,
    .joint default [.gate default "wan" .pending, .gate default "radio" state]]

theorem aggregate_of_leaves_nested :
    (nested .delivered).status = .delivered ∧ (nested .delivered).gateway = "radio" ∧
      (nested .unknown).status = .pending ∧ (nested .unknown).gateway = "lan+wan+radio" := by
  obtain ⟨hstatus, -, -, -, -, -, hname, -⟩ := aggregate_of_leaves (nested .delivered)
  obtain ⟨hstatus', -, -, -, -, -, -, hname'⟩ := aggregate_of_leaves (nested .unknown)
  refine ⟨hstatus.trans rfl, hname ("radio", .delivered) rfl, hstatus'.trans rfl, ?_⟩
  exact (hname' rfl (by decide)).trans rfl

end Receipt

end Overlay
