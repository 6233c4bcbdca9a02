import Overlay.Identity.Basic

/-!
# Registers

A finite map from identities that remembers the order of entry. An identity has at most one entry;
to enter it anew removes the earlier entry and puts the new one at the end. Each operation is
described by what it does to `get?`.
-/

namespace Overlay

/-- A finite map from identities, in the order of entry. -/
structure Register (α : Type) where
  toList : List (Identity × α)
  nodup : (toList.map Prod.fst).Nodup

namespace Register

def empty {α : Type} : Register α :=
  ⟨[], .nil⟩

instance {α : Type} : Inhabited (Register α) := ⟨empty⟩

def get? {α : Type} (r : Register α) (i : Identity) : Option α :=
  r.toList.lookup i

def contains {α : Type} (r : Register α) (i : Identity) : Bool :=
  (r.get? i).isSome

def size {α : Type} (r : Register α) : Nat :=
  r.toList.length

def keys {α : Type} (r : Register α) : List Identity :=
  r.toList.map Prod.fst

def values {α : Type} (r : Register α) : List α :=
  r.toList.map Prod.snd

def erase {α : Type} (r : Register α) (i : Identity) : Register α :=
  ⟨r.toList.filter (·.1 ≠ i), r.nodup.sublist (List.filter_sublist.map Prod.fst)⟩

theorem not_mem_keys_erase {α : Type} (r : Register α) (i : Identity) :
    i ∉ (r.erase i).toList.map Prod.fst := by
  simp [erase]

/-- Enters something for an identity, whatever was entered for it before. -/
def enter {α : Type} (r : Register α) (i : Identity) (a : α) : Register α :=
  ⟨(r.erase i).toList ++ [(i, a)], by
    rw [List.map_append, List.nodup_append]
    refine ⟨(r.erase i).nodup, by simp, fun x hx y hy h => ?_⟩
    obtain rfl : y = i := by simpa using hy
    exact r.not_mem_keys_erase y (h ▸ hx)⟩

/-- Enters something for an identity for which nothing is entered. -/
def add? {α : Type} (r : Register α) (i : Identity) (a : α) : Option (Register α) :=
  if r.contains i then none else some (r.enter i a)

/-- The register without the entry of an identity, if that is the given one. -/
def eraseIf {α : Type} [BEq α] (r : Register α) (i : Identity) (a : α) : Register α :=
  if r.get? i == some a then r.erase i else r

/-! ## What the operations do to `get?` -/

@[simp] theorem get?_empty {α : Type} (i : Identity) : (empty : Register α).get? i = none := rfl

theorem lookup_filter_ne {α : Type} (l : List (Identity × α)) (i j : Identity) :
    (l.filter (·.1 ≠ i)).lookup j = if j = i then none else l.lookup j := by
  induction l with
  | nil => simp
  | cons e l ih =>
    obtain ⟨k, a⟩ := e
    rw [List.filter_cons]
    by_cases hk : k = i
    · subst hk
      by_cases hj : j = k <;> simpa [List.lookup_cons, hj, beq_eq_false_iff_ne.2] using ih
    · by_cases hj : j = k
      · subst hj; simp [hk]
      · have : (j == k) = false := by simpa using hj
        simpa [List.lookup_cons, hk, this] using ih

@[simp] theorem get?_erase {α : Type} (r : Register α) (i j : Identity) :
    (r.erase i).get? j = if j = i then none else r.get? j :=
  lookup_filter_ne r.toList i j

@[simp] theorem get?_enter {α : Type} (r : Register α) (i j : Identity) (a : α) :
    (r.enter i a).get? j = if j = i then some a else r.get? j := by
  have h : (r.erase i).toList.lookup j = if j = i then none else r.get? j := r.get?_erase i j
  unfold get? enter
  rw [List.lookup_append, h]
  by_cases hj : j = i
  · simp [hj]
  · have : (j == i) = false := by simpa using hj
    simp [hj, this, get?, List.lookup_cons]

theorem mem_toList {α : Type} {r : Register α} {i : Identity} {a : α} :
    (i, a) ∈ r.toList ↔ r.get? i = some a := by
  obtain ⟨l, hl⟩ := r
  change (i, a) ∈ l ↔ l.lookup i = some a
  induction l with
  | nil => simp
  | cons e l ih =>
    obtain ⟨k, b⟩ := e
    have ⟨hk, hl⟩ := List.nodup_cons.1 hl
    by_cases h : i = k
    · subst h
      have : ∀ c, (i, c) ∉ l := fun c hc => hk (List.mem_map.2 ⟨_, hc, rfl⟩)
      simp [this, eq_comm]
    · have hb : (i == k) = false := by simpa using h
      simp [List.lookup_cons, hb, h, ih hl]

end Register

end Overlay
