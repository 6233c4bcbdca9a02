import Overlay.Json.Normal

/-!
# Trees that are normal already

Normalising leaves a normal tree as it is (`normalize_of_isNormal`) and never makes a tree deeper
(`depth_normalize_le`). Both go by the recursion of `normalize`, whose accumulator is the list of
members that are in place.
-/

namespace Overlay

namespace Json

/-- A member behind all others goes to the end. -/
theorem placeMember_of_gt {k : String} {v : Json} {l : List (String × Json)}
    (h : ∀ m ∈ l, m.1 < k) : placeMember k v l = l ++ [(k, v)] := by
  induction l with
  | nil => rfl
  | cons m l ih =>
    obtain ⟨n, w⟩ := m
    have hn : n < k := h _ List.mem_cons_self
    have hne : k ≠ n := by
      rintro rfl
      exact String.lt_irrefl _ hn
    rw [placeMember, if_neg (String.lt_asymm hn), if_neg hne,
      ih fun m hm => h m (List.mem_cons_of_mem _ hm), List.cons_append]

mutual

theorem normalize_of_isNormal : ∀ {j : Json}, IsNormal j → normalize j = j
  | .null, _ | .bool _, _ | .number _, _ | .string _, _ => rfl
  | .array items, h => by
    cases h with
    | array h => rw [normalize, normalizeItems_of_areNormal h]
  | .object members, h => by
    cases h with
    | object hkeys h =>
      rw [normalize, @normalizeMembers_of_ascending members [] hkeys h, List.nil_append]

theorem normalizeItems_of_areNormal : ∀ {l : List Json}, AreNormal l → normalizeItems l = l
  | [], _ => rfl
  | _ :: _, h => by
    cases h with
    | cons ha h => rw [normalizeItems, normalize_of_isNormal ha, normalizeItems_of_areNormal h]

/-- Ascending members go one behind the other. -/
theorem normalizeMembers_of_ascending : ∀ {l acc : List (String × Json)}, Ascending (acc ++ l) →
    AreNormal (l.map (·.2)) → normalizeMembers acc l = acc ++ l
  | [], acc, _, _ => (List.append_nil acc).symm
  | (k, a) :: l, acc, hkeys, h => by
    cases h with
    | cons ha h =>
      have hplace : placeMember k a acc = acc ++ [(k, a)] :=
        placeMember_of_gt fun m hm => (List.pairwise_append.1 hkeys).2.2 m hm _ List.mem_cons_self
      have hsplit : acc ++ (k, a) :: l = acc ++ [(k, a)] ++ l := by simp
      rw [hsplit] at hkeys ⊢
      rw [normalizeMembers, normalize_of_isNormal ha, hplace,
        normalizeMembers_of_ascending hkeys h]

end

/-! ## Depth -/

theorem depthMembers_placeMember_le {k : String} {v : Json} {l : List (String × Json)} :
    depthMembers (placeMember k v l) ≤ max v.depth (depthMembers l) := by
  induction l with
  | nil => simp [placeMember, depthMembers]
  | cons m l ih =>
    obtain ⟨n, w⟩ := m
    rw [placeMember]
    split
    · simp [depthMembers]
    split
    · simp only [depthMembers]
      omega
    · simp only [depthMembers]
      omega

mutual

theorem depth_normalize_le : ∀ j : Json, (normalize j).depth ≤ j.depth
  | .null | .bool _ | .number _ | .string _ => Nat.le_refl _
  | .array items => Nat.succ_le_succ (depthItems_normalizeItems_le items)
  | .object members => by
    have h := depthMembers_normalizeMembers_le members []
    rw [depthMembers, Nat.zero_max] at h
    exact Nat.succ_le_succ h

theorem depthItems_normalizeItems_le : ∀ l : List Json, depthItems (normalizeItems l) ≤ depthItems l
  | [] => Nat.le_refl _
  | a :: l => by
    have ha := depth_normalize_le a
    have hl := depthItems_normalizeItems_le l
    simp only [normalizeItems, depthItems]
    omega

theorem depthMembers_normalizeMembers_le : ∀ l acc : List (String × Json),
    depthMembers (normalizeMembers acc l) ≤ max (depthMembers acc) (depthMembers l)
  | [], _ => Nat.le_max_left _ _
  | (k, a) :: l, acc => by
    have ha := depth_normalize_le a
    have hplace := depthMembers_placeMember_le (k := k) (v := normalize a) (l := acc)
    have hl := depthMembers_normalizeMembers_le l (placeMember k (normalize a) acc)
    simp only [normalizeMembers, depthMembers] at hl ⊢
    omega

end

/-! ## Arrays inside each other -/

def nest : Nat → Json
  | 0 => .null
  | n + 1 => .array [nest n]

theorem depth_nest (n : Nat) : (nest n).depth = n := by
  induction n with
  | zero => rfl
  | succ n ih => simp [nest, depth, depthItems, ih]

theorem isWhole_nest (n : Nat) : (nest n).isWhole = true := by
  induction n with
  | zero => rfl
  | succ n ih => simp [nest, isWhole, isWholeItems, ih]

theorem isNormal_nest (n : Nat) : IsNormal (nest n) := by
  induction n with
  | zero => exact .null
  | succ n ih => exact .array (.cons ih .nil)

end Json

/-- Data that are nothing but arrays inside each other. -/
def Body.nest (n : Nat) : Body :=
  ⟨.nest n, Json.isNormal_nest n⟩

theorem Body.ofJson_tree (b : Body) : Body.ofJson b.tree = b := by
  obtain ⟨tree, normal⟩ := b
  simp [Body.ofJson, Json.normalize_of_isNormal normal]

end Overlay
