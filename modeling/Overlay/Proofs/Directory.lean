import Overlay.Directory

/-!
# What the operations of a directory do

A directory is looked at in three ways: which agent is registered under an identity, which slot an
identity has, and what stands in a slot. Every operation is described by what it does to these
three. `Directory.Sound` is the bond between the last two that makes slots safe to keep: the slot of
a known identity exists and holds a contact of that identity, so two identities never share a slot.
-/

namespace Overlay

/-! ## Registers -/

namespace Register

variable {α : Type} {r r' : Register α} {i j : Identity} {a b : α}

theorem contains_iff : r.contains i = true ↔ ∃ a, r.get? i = some a :=
  Option.isSome_iff_exists

theorem add?_eq_some (h : r.add? i a = some r') : r.get? i = none ∧ r' = r.enter i a := by
  unfold add? contains at h
  split at h
  · contradiction
  · next hc => exact ⟨by simpa using hc, (Option.some.inj h).symm⟩

theorem get?_eraseIf [DecidableEq α] :
    (r.eraseIf i a).get? j = if j = i ∧ r.get? i = some a then none else r.get? j := by
  unfold eraseIf
  by_cases h : r.get? i = some a
  · simp [h]
  · simp [h]

end Register

namespace Directory

variable {d d' : Directory} {i j : Identity} {a : AgentId} {s t : Slot} {eps : EndpointSet}
  {now : Nat}

theorem isLocal_iff : d.isLocal i = true ↔ ∃ a, d.local? i = some a := Register.contains_iff

theorem isRemote_iff : d.isRemote i = true ↔ ∃ s, d.remote? i = some s := Register.contains_iff

theorem isRemote_of_remote? (h : d.remote? i = some s) : d.isRemote i = true :=
  isRemote_iff.2 ⟨s, h⟩

theorem remote?_eq_none (h : d.isRemote i = false) : d.remote? i = none := by
  cases hs : d.remote? i with
  | none => rfl
  | some s => rw [isRemote_of_remote? hs] at h; contradiction

/-- The slot of a known identity exists and holds a contact of that identity. -/
structure Sound (d : Directory) : Prop where
  exists_slot : ∀ {i s}, d.remote? i = some s → s < d.slots.length
  identity : ∀ {i s}, d.remote? i = some s → (d.contact s).identity = i

theorem sound_empty : Sound empty := ⟨by simp [remote?, empty], by simp [remote?, empty]⟩

/-- Only registrations differ. -/
theorem Sound.of_eq (h : d.Sound) (hremotes : d'.remotes = d.remotes)
    (hslots : d'.slots = d.slots) : d'.Sound := by
  constructor
  · intro i s hs
    rw [remote?, hremotes] at hs
    rw [hslots]
    exact h.exists_slot hs
  · intro i s hs
    rw [remote?, hremotes] at hs
    rw [contact, hslots]
    exact h.identity hs

theorem Sound.remote?_inj (h : d.Sound) (hi : d.remote? i = some s) (hj : d.remote? j = some s) :
    i = j :=
  (h.identity hi).symm.trans (h.identity hj)

/-! ## Registrations -/

theorem insertLocal?_eq_some (h : d.insertLocal? i a = some d') :
    d.local? i = none ∧ d' = { d with locals := d.locals.enter i a } := by
  unfold insertLocal? at h
  rw [Option.map_eq_some_iff] at h
  obtain ⟨locals, hadd, rfl⟩ := h
  have ⟨hnone, hlocals⟩ := Register.add?_eq_some hadd
  exact ⟨hnone, by rw [hlocals]⟩

theorem isLocal_insertLocal? (h : d.insertLocal? i a = some d') :
    d'.isLocal j = (j == i || d.isLocal j) := by
  obtain ⟨-, rfl⟩ := insertLocal?_eq_some h
  by_cases hj : j = i <;> simp [isLocal, Register.contains, hj]

theorem isRemote_insertLocal? (h : d.insertLocal? i a = some d') :
    d'.isRemote j = d.isRemote j := by
  obtain ⟨-, rfl⟩ := insertLocal?_eq_some h
  rfl

theorem isLocal_of_isLocal_removeLocal (h : (d.removeLocal i).isLocal j = true) :
    d.isLocal j = true := by
  obtain ⟨b, hb⟩ := isLocal_iff.1 h
  rw [local?, removeLocal, Register.get?_erase] at hb
  split at hb
  · contradiction
  · exact isLocal_iff.2 ⟨b, hb⟩

theorem isLocal_of_isLocal_removeLocalAgent (h : (d.removeLocalAgent i a).isLocal j = true) :
    d.isLocal j = true := by
  obtain ⟨b, hb⟩ := isLocal_iff.1 h
  rw [local?, removeLocalAgent, Register.get?_eraseIf] at hb
  split at hb
  · contradiction
  · exact isLocal_iff.2 ⟨b, hb⟩

@[simp] theorem local?_removeLocal :
    (d.removeLocal i).local? j = if j = i then none else d.local? j :=
  Register.get?_erase d.locals i j

/-! ## Slots -/

theorem contact_modify (f : Contact → Contact) (h : s < d.slots.length) :
    (d.modify s f).contact t = if t = s then f (d.contact s) else d.contact t := by
  by_cases hts : t = s
  · subst hts
    simp [modify, contact, List.getD, h]
  · simp [modify, contact, List.getD, hts, Ne.symm hts]

@[simp] theorem length_modify (f : Contact → Contact) : (d.modify s f).slots.length = d.slots.length := by
  simp [modify]

@[simp] theorem remote?_modify (f : Contact → Contact) : (d.modify s f).remote? i = d.remote? i := rfl

theorem Sound.modify (h : d.Sound) {f : Contact → Contact} (hf : ∀ c, (f c).identity = c.identity) :
    (d.modify s f).Sound := by
  refine ⟨fun hs => by simpa using h.exists_slot hs, fun {j t} hs => ?_⟩
  rw [remote?_modify] at hs
  by_cases hlt : s < d.slots.length
  · rw [contact_modify f hlt]
    by_cases hts : t = s
    · subst hts
      rw [if_pos rfl, hf]
      exact h.identity hs
    · rw [if_neg hts]
      exact h.identity hs
  · have : d.modify s f = d := by
      simp [Directory.modify, List.modify_eq_self (Nat.le_of_not_lt hlt)]
    rw [this]
    exact h.identity hs

/-! ## Arrivals -/

@[simp] theorem locals_announce : (d.announce i eps now).locals = d.locals := by
  unfold announce; split <;> rfl

/-- An arrival keeps the slot of a known identity and opens the next one for an unknown one. -/
theorem remote?_announce :
    (d.announce i eps now).remote? j =
      if j = i then some ((d.remote? i).getD d.slots.length) else d.remote? j := by
  unfold announce
  split
  · next s hs => by_cases hj : j = i <;> simp [hj, hs]
  · next hs =>
    unfold remote? at hs ⊢
    simp [hs]

theorem remote?_announce_of_known (h : d.remote? j = some s) :
    (d.announce i eps now).remote? j = some s := by
  rw [remote?_announce]
  by_cases hj : j = i
  · subst hj; simp [h]
  · simp [hj, h]

@[simp] theorem isRemote_announce :
    (d.announce i eps now).isRemote j = (j == i || d.isRemote j) := by
  have h : (d.announce i eps now).remote? j = _ := remote?_announce
  unfold remote? at h
  unfold isRemote Register.contains
  rw [h]
  by_cases hj : j = i <;> simp [hj]

@[simp] theorem isLocal_announce : (d.announce i eps now).isLocal j = d.isLocal j := by
  simp [isLocal]

theorem length_announce_of_known (h : d.remote? i = some s) :
    (d.announce i eps now).slots.length = d.slots.length := by
  unfold announce; simp [h]

theorem length_announce_of_unknown (h : d.remote? i = none) :
    (d.announce i eps now).slots.length = d.slots.length + 1 := by
  unfold announce; simp [h]

theorem length_le_announce : d.slots.length ≤ (d.announce i eps now).slots.length := by
  unfold announce; split <;> simp

/-- The contact in the slot of an identity that has just arrived. -/
theorem contact_announce_self (h : d.Sound)
    (hs : (d.announce i eps now).remote? i = some s) :
    (d.announce i eps now).contact s =
      match d.remote? i with
      | some s => (d.contact s).refreshed eps now
      | none => ⟨i, eps, now⟩ := by
  rw [remote?_announce, if_pos rfl, Option.some.injEq] at hs
  subst hs
  unfold announce
  cases hi : d.remote? i with
  | some s => simp [contact_modify _ (h.exists_slot hi)]
  | none => simp [contact, List.getD]

/-- An arrival leaves all slots alone that were open before, but that of its identity. -/
theorem contact_announce_ne (h : d.Sound) (hlt : t < d.slots.length) (hne : d.remote? i ≠ some t) :
    (d.announce i eps now).contact t = d.contact t := by
  unfold announce
  cases hi : d.remote? i with
  | some s =>
    have hts : t ≠ s := fun e => hne (e ▸ hi)
    simp [contact_modify _ (h.exists_slot hi), hts]
  | none => simp [contact, List.getD, List.getElem?_append_left hlt]

theorem contact_of_length_le (h : d.slots.length ≤ s) : d.contact s = default := by
  simp [contact, List.getD, List.getElem?_eq_none h]

/-- An arrival is a sign of life of its identity, and of nobody else. -/
theorem lastSeen_announce (h : d.Sound) (s : Slot) :
    ((d.announce i eps now).contact s).lastSeen =
      if (d.announce i eps now).remote? i = some s then max (d.contact s).lastSeen now
      else (d.contact s).lastSeen := by
  by_cases hs : (d.announce i eps now).remote? i = some s
  · rw [if_pos hs, contact_announce_self h hs]
    rw [remote?_announce, if_pos rfl, Option.some.injEq] at hs
    cases hi : d.remote? i with
    | some t =>
      rw [hi, Option.getD_some] at hs
      subst hs
      rfl
    | none =>
      rw [hi, Option.getD_none] at hs
      rw [contact_of_length_le (Nat.le_of_eq hs)]
      exact (Nat.zero_max now).symm
  · rw [if_neg hs]
    rw [remote?_announce, if_pos rfl] at hs
    by_cases hlt : s < d.slots.length
    · rw [contact_announce_ne h hlt fun hi => hs (by rw [hi, Option.getD_some])]
    · -- A slot that is not open is opened for nobody but the identity.
      have hle : d.slots.length ≤ s := Nat.le_of_not_lt hlt
      have hle' : (d.announce i eps now).slots.length ≤ s := by
        cases hi : d.remote? i with
        | some t => rwa [length_announce_of_known hi]
        | none =>
          rw [hi, Option.getD_none] at hs
          rw [length_announce_of_unknown hi]
          exact Nat.lt_of_le_of_ne hle fun e => hs (by rw [e])
      rw [contact_of_length_le hle', contact_of_length_le hle]

theorem lastSeen_le_announce (h : d.Sound) (s : Slot) :
    (d.contact s).lastSeen ≤ ((d.announce i eps now).contact s).lastSeen := by
  rw [lastSeen_announce h]
  split
  · exact Nat.le_max_left _ _
  · exact Nat.le_refl _

/-- Whoever has just arrived is listed with the endpoints that it has announced. -/
theorem endpoints_announce_self (h : d.Sound) (hs : (d.announce i eps now).remote? i = some s) :
    ((d.announce i eps now).contact s).endpoints = eps := by
  rw [contact_announce_self h hs]
  split <;> rfl

theorem Sound.announce (h : d.Sound) : (d.announce i eps now).Sound := by
  constructor
  · intro j t ht
    rw [remote?_announce] at ht
    by_cases hj : j = i
    · subst hj
      rw [if_pos rfl] at ht
      cases hi : d.remote? j with
      | some s =>
        rw [hi, Option.getD_some, Option.some.injEq] at ht
        subst ht
        exact Nat.lt_of_lt_of_le (h.exists_slot hi) length_le_announce
      | none =>
        rw [hi, Option.getD_none, Option.some.injEq] at ht
        rw [length_announce_of_unknown hi, ← ht]
        exact Nat.lt_succ_self _
    · rw [if_neg hj] at ht
      exact Nat.lt_of_lt_of_le (h.exists_slot ht) length_le_announce
  · intro j t ht
    by_cases hj : j = i
    · subst hj
      rw [contact_announce_self h ht]
      cases hi : d.remote? j with
      | some s => exact h.identity hi
      | none => rfl
    · rw [remote?_announce, if_neg hj] at ht
      have hne : d.remote? i ≠ some t := fun hi => hj (h.remote?_inj ht hi)
      rw [contact_announce_ne h (h.exists_slot ht) hne]
      exact h.identity ht

/-! ## Departures -/

@[simp] theorem remote?_removeRemote :
    (d.removeRemote i).remote? j = if j = i then none else d.remote? j :=
  Register.get?_erase d.remotes i j

@[simp] theorem isRemote_removeRemote :
    (d.removeRemote i).isRemote j = (j != i && d.isRemote j) := by
  have h : (d.removeRemote i).remote? j = _ := remote?_removeRemote
  unfold remote? at h
  unfold isRemote Register.contains
  rw [h]
  by_cases hj : j = i <;> simp [hj]

@[simp] theorem contact_removeRemote : (d.removeRemote i).contact s = d.contact s := rfl

theorem Sound.removeRemote (h : d.Sound) : (d.removeRemote i).Sound := by
  constructor
  · intro j t ht
    rw [remote?_removeRemote] at ht
    split at ht
    · contradiction
    · exact h.exists_slot ht
  · intro j t ht
    rw [remote?_removeRemote] at ht
    split at ht
    · contradiction
    · exact h.identity ht

/-! ## Signs of life -/

@[simp] theorem locals_touch : (d.touch i now).locals = d.locals := by
  unfold touch; split <;> rfl

@[simp] theorem remotes_touch : (d.touch i now).remotes = d.remotes := by
  unfold touch; split <;> rfl

@[simp] theorem remote?_touch : (d.touch i now).remote? j = d.remote? j := by
  simp [remote?]

@[simp] theorem isRemote_touch : (d.touch i now).isRemote j = d.isRemote j := by
  simp [isRemote]

@[simp] theorem isLocal_touch : (d.touch i now).isLocal j = d.isLocal j := by
  simp [isLocal]

@[simp] theorem length_touch : (d.touch i now).slots.length = d.slots.length := by
  unfold touch; split <;> simp [touchSlot]

/-- A sign of life is written to the slot of its sender and to no other. -/
theorem contact_touch (h : d.Sound) :
    (d.touch i now).contact t =
      if d.remote? i = some t then (d.contact t).seen now else d.contact t := by
  unfold touch
  cases hi : d.remote? i with
  | some s =>
    have hmod := contact_modify (t := t) (Contact.seen · now) (h.exists_slot hi)
    by_cases hts : t = s
    · subst hts
      simpa [touchSlot] using hmod
    · simpa [touchSlot, hts, Ne.symm hts] using hmod
  | none => simp

/-- A sign of life takes no contact back in time. -/
theorem lastSeen_le_touch (h : d.Sound) (s : Slot) :
    (d.contact s).lastSeen ≤ ((d.touch i now).contact s).lastSeen := by
  rw [contact_touch h]
  split
  · exact Nat.le_max_left _ _
  · exact Nat.le_refl _

@[simp] theorem endpoints_touch :
    ((d.touch i now).contact s).endpoints = (d.contact s).endpoints := by
  unfold touch
  cases d.remote? i with
  | none => rfl
  | some t =>
    by_cases hs : t = s
    · subst hs
      cases ht : d.slots[t]? <;>
        simp [touchSlot, modify, contact, List.getD, Contact.seen, ht]
    · simp [touchSlot, modify, contact, List.getD, hs]

theorem Sound.touch (h : d.Sound) : (d.touch i now).Sound := by
  unfold Directory.touch
  split
  · exact h.modify fun _ => rfl
  · exact h

end Directory

end Overlay
