import Overlay.Json.Basic

/-!
# Normal JSON trees

A tree is normal if the keys of each object in it are strictly ascending. Normalising puts every
member in its place by its key and lets a later member replace an earlier one with the same key; the
main statement is `isNormal_normalize`, on which the type `Body` of normal trees rests.
-/

namespace Overlay.Json

def Ascending (members : List (String × Json)) : Prop :=
  members.Pairwise fun a b => a.1 < b.1

/-- Puts a member in its place in an ascending list; one with the same key gives way. -/
def placeMember (k : String) (v : Json) : List (String × Json) → List (String × Json)
  | [] => [(k, v)]
  | (l, w) :: rest =>
    if k < l then (k, v) :: (l, w) :: rest
    else if k = l then (k, v) :: rest
    else (l, w) :: placeMember k v rest

mutual

inductive IsNormal : Json → Prop
  | null : IsNormal .null
  | bool (b : Bool) : IsNormal (.bool b)
  | number (n : Number) : IsNormal (.number n)
  | string (s : String) : IsNormal (.string s)
  | array {items : List Json} : AreNormal items → IsNormal (.array items)
  | object {members : List (String × Json)} :
      Ascending members → AreNormal (members.map (·.2)) → IsNormal (.object members)

inductive AreNormal : List Json → Prop
  | nil : AreNormal []
  | cons {a : Json} {as : List Json} : IsNormal a → AreNormal as → AreNormal (a :: as)

end

mutual

def normalize : Json → Json
  | .array items => .array (normalizeItems items)
  | .object members => .object (normalizeMembers [] members)
  | j => j

def normalizeItems : List Json → List Json
  | [] => []
  | a :: as => normalize a :: normalizeItems as

/-- Places the normalised members in turn into the ascending list `acc`. -/
def normalizeMembers (acc : List (String × Json)) :
    List (String × Json) → List (String × Json)
  | [] => acc
  | (k, a) :: rest => normalizeMembers (placeMember k (normalize a) acc) rest

end

theorem mem_placeMember {k : String} {v : Json} {m : String × Json} {l : List (String × Json)}
    (h : m ∈ placeMember k v l) : m = (k, v) ∨ m ∈ l := by
  induction l with
  | nil => simpa [placeMember] using h
  | cons head rest ih =>
    obtain ⟨l, w⟩ := head
    simp only [placeMember] at h
    split at h
    · simpa using h
    split at h
    · rcases List.mem_cons.1 h with h | h <;> simp [h]
    · rcases List.mem_cons.1 h with rfl | h
      · simp
      · rcases ih h with h | h <;> simp [h]

theorem ascending_placeMember {k : String} {v : Json} {l : List (String × Json)}
    (h : Ascending l) : Ascending (placeMember k v l) := by
  induction l with
  | nil => simp [placeMember, Ascending]
  | cons head rest ih =>
    obtain ⟨l, w⟩ := head
    have ⟨hl, hrest⟩ := List.pairwise_cons.1 h
    simp only [placeMember]
    split
    next hkl =>
      refine List.pairwise_cons.2 ⟨fun x hx => ?_, h⟩
      rcases List.mem_cons.1 hx with rfl | hx
      · exact hkl
      · exact String.lt_trans hkl (hl x hx)
    split
    next _ hkl =>
      refine List.pairwise_cons.2 ⟨fun x hx => ?_, hrest⟩
      exact hkl ▸ hl x hx
    next hlt hne =>
      refine List.pairwise_cons.2 ⟨fun x hx => ?_, ih hrest⟩
      rcases mem_placeMember hx with rfl | hx
      · exact Std.lt_of_le_of_ne (Std.not_lt.1 hlt) (Ne.symm hne)
      · exact hl x hx

theorem areNormal_iff {l : List Json} : AreNormal l ↔ ∀ j ∈ l, IsNormal j := by
  induction l with
  | nil => simp [AreNormal.nil]
  | cons a as ih =>
    refine ⟨fun h => ?_, fun h => .cons (h a (by simp)) (ih.2 fun j hj => h j (by simp [hj]))⟩
    cases h with
    | cons ha has => simpa [ha] using ih.1 has

mutual

theorem isNormal_normalize : ∀ j : Json, IsNormal (normalize j)
  | .null => .null
  | .bool b => .bool b
  | .number n => .number n
  | .string s => .string s
  | .array items => by rw [normalize]; exact .array (areNormal_normalizeItems items)
  | .object members => by
    rw [normalize]
    have start : ∀ m ∈ ([] : List (String × Json)), IsNormal m.2 := by simp
    have h := normalizeMembers_normal members .nil start
    exact .object h.1 (areNormal_iff.2 fun j hj => by
      obtain ⟨m, hm, rfl⟩ := List.mem_map.1 hj
      exact h.2 m hm)

theorem areNormal_normalizeItems : ∀ l : List Json, AreNormal (normalizeItems l)
  | [] => .nil
  | a :: as => .cons (isNormal_normalize a) (areNormal_normalizeItems as)

theorem normalizeMembers_normal : ∀ (l : List (String × Json)) {acc : List (String × Json)},
    Ascending acc → (∀ m ∈ acc, IsNormal m.2) →
      Ascending (normalizeMembers acc l) ∧ ∀ m ∈ normalizeMembers acc l, IsNormal m.2
  | [], _, hacc, hn => ⟨hacc, hn⟩
  | (k, a) :: rest, _, hacc, hn => by
    rw [normalizeMembers]
    refine normalizeMembers_normal rest (ascending_placeMember hacc) fun m hm => ?_
    rcases mem_placeMember hm with rfl | hm
    · exact isNormal_normalize a
    · exact hn m hm

end

end Overlay.Json

namespace Overlay

/-- A normal JSON tree. -/
structure Body where
  tree : Json
  normal : tree.IsNormal

namespace Body

def ofJson (j : Json) : Body :=
  ⟨j.normalize, j.isNormal_normalize⟩

instance : Inhabited Body := ⟨⟨.null, .null⟩⟩

def equal (a b : Body) : Bool :=
  a.tree.equal b.tree

end Body

end Overlay
