import Overlay.Proofs.Directory
import Overlay.Proofs.History

/-!
# Contacts and their history

Contacts come and go by announcements, removals and signs of life, and whoever was given the number
of a slot may go on writing to it for ever. So there are two accounts of a contact: what stands in
its slot, and what can be told from the edits alone that were ever made. `contacts_follow_history`
says that they are the same account.

What an edit does to a slot depends only on whose slot it is at that moment. Nobody gets the slot of
another one, so a slot belongs to one identity from its first announcement until that is forgotten,
and to nobody afterwards. An edit therefore is read with an owner in mind, if there is one.
-/

namespace Overlay

namespace Directory

/-- What may be done to the contacts of a directory. -/
inductive Edit where
  | announce (identity : Identity) (endpoints : EndpointSet) (now : Nat)
  | remove (identity : Identity)
  | touch (identity : Identity) (now : Nat)
  /-- Somebody who was given the number of a slot writes activity to it. -/
  | touchSlot (slot : Slot) (now : Nat)
  | clear

namespace Edit

def announces (i : Identity) : Edit → Bool
  | .announce j _ _ => j == i
  | _ => false

def forgets (i : Identity) : Edit → Bool
  | .remove j => j == i
  | .clear => true
  | _ => false

/-- The endpoints that an edit writes to a slot with an owner, or with none. -/
def endpoints? (owner : Option Identity) : Edit → Option EndpointSet
  | .announce j eps _ => if owner = some j then some eps else none
  | _ => none

/-- The time that an edit writes to a slot with an owner, or with none. -/
def time? (owner : Option Identity) (s : Slot) : Edit → Option Nat
  | .announce j _ now | .touch j now => if owner = some j then some now else none
  | .touchSlot t now => if t = s then some now else none
  | _ => none

end Edit

def edit (d : Directory) : Edit → Directory
  | .announce i eps now => d.announce i eps now
  | .remove i => d.removeRemote i
  | .touch i now => d.touch i now
  | .touchSlot s now => d.touchSlot s now
  | .clear => d.clear

/-- The directory after a history of edits, the first of which found it empty. -/
def after (history : List Edit) : Directory :=
  history.foldl edit empty

/-- An identity was announced and has not been forgotten since. -/
def Announced (history : List Edit) (i : Identity) : Prop :=
  Since (fun _ x => x.announces i = true) (fun x => x.forgets i = true) history

/-- A slot was that of a contact at some time, so its number may be in anybody's hands. -/
def Given (history : List Edit) (s : Slot) : Prop :=
  ∃ earlier i, earlier <+: history ∧ (after earlier).remote? i = some s

variable {d : Directory} {i j : Identity} {s t : Slot} {x : Edit} {xs pre post history : List Edit}
  {owner : Option Identity} {eps : EndpointSet} {now : Nat}

theorem after_append : after (pre ++ post) = post.foldl edit (after pre) :=
  List.foldl_append

theorem after_concat : after (history ++ [x]) = (after history).edit x := by
  simp [after]

/-! ## Who is known -/

theorem sound_edit (h : d.Sound) : (d.edit x).Sound := by
  cases x with
  | announce i eps now => exact h.announce
  | remove i => exact h.removeRemote
  | touch i now => exact h.touch
  | touchSlot s now => exact h.modify fun _ => rfl
  | clear => exact ⟨by simp [edit, clear, remote?], by simp [edit, clear, remote?]⟩

theorem sound_after : (after history).Sound := by
  induction history using List.reverseRecOn with
  | nil => exact sound_empty
  | append_singleton history x ih => exact after_concat ▸ sound_edit ih

theorem length_le_edit : d.slots.length ≤ (d.edit x).slots.length := by
  cases x with
  | announce i eps now => exact length_le_announce
  | touch i now => simp [edit]
  | touchSlot s now => simp [edit, touchSlot]
  | remove _ | clear => exact Nat.le_refl _

theorem length_le_foldl : d.slots.length ≤ (xs.foldl edit d).slots.length := by
  induction xs generalizing d with
  | nil => simp
  | cons x xs ih => exact Nat.le_trans length_le_edit ih

/-- Who is known after an edit. -/
theorem remote?_edit : (d.edit x).remote? i =
    if x.announces i then some ((d.remote? i).getD d.slots.length)
    else if x.forgets i then none else d.remote? i := by
  cases x with
  | announce j eps now =>
    by_cases hij : j = i
    · simp [edit, remote?_announce, Edit.announces, hij]
    · simp [edit, remote?_announce, Edit.announces, Edit.forgets, hij, Ne.symm hij]
  | remove j =>
    by_cases hij : j = i
    · simp [edit, Edit.announces, Edit.forgets, hij]
    · simp [edit, Edit.announces, Edit.forgets, hij, Ne.symm hij]
  | touch j now => simp [edit, Edit.announces, Edit.forgets]
  | touchSlot t now => simp [edit, touchSlot, Edit.announces, Edit.forgets]
  | clear => simp [edit, clear, remote?, Edit.announces, Edit.forgets]

/-- An identity is known exactly if it was announced and has not been forgotten since. -/
theorem isRemote_after : (after history).isRemote i = true ↔ Announced history i := by
  induction history using List.reverseRecOn with
  | nil => exact iff_of_false (by simp [after, empty, isRemote, Register.contains]) not_since_nil
  | append_singleton history x ih =>
    rw [Announced, since_concat, ← Announced, ← ih, isRemote_iff, isRemote_iff, after_concat,
      remote?_edit]
    by_cases hannounces : x.announces i = true
    · simp [hannounces]
    · by_cases hforgets : x.forgets i = true
      · simp [hannounces, hforgets]
      · simp [hannounces, hforgets]

/-! ## Whose slot it is -/

/-- A slot that was opened belongs to its owner, if it has one. -/
structure Owns (d : Directory) (owner : Option Identity) (s : Slot) : Prop where
  opened : s < d.slots.length
  remote? : ∀ j, d.remote? j = some s ↔ owner = some j

theorem Sound.owns (h : d.Sound) (hs : d.remote? i = some s) : d.Owns (some i) s where
  opened := h.exists_slot hs
  remote? := by
    intro j
    constructor
    · intro hj
      rw [h.remote?_inj hs hj]
    · rintro ⟨⟩
      exact hs

theorem owns_none (hs : s < d.slots.length) (hnobody : ∀ i, d.remote? i ≠ some s) :
    d.Owns none s :=
  ⟨hs, fun i => iff_of_false (hnobody i) (by simp)⟩

/-- A slot stays with its owner until that is forgotten, and with nobody for ever. -/
theorem Owns.edit (h : d.Owns owner s) (hkeeps : ∀ i, owner = some i → x.forgets i = false) :
    (d.edit x).Owns owner s where
  opened := Nat.lt_of_lt_of_le h.opened length_le_edit
  remote? := by
    intro j
    rw [remote?_edit, ← h.remote?]
    by_cases hj : d.remote? j = some s
    · simp [hj, hkeeps j ((h.remote? j).1 hj)]
    · by_cases hannounces : x.announces j = true
      · cases hslot : d.remote? j with
        | none =>
          -- A slot that is opened now is not one that was opened before.
          have hne : d.slots.length ≠ s := Nat.ne_of_gt h.opened
          simp [hannounces, hne]
        | some t =>
          rw [hslot] at hj
          simp [hannounces, hj]
      · by_cases hforgets : x.forgets j = true <;> simp [hannounces, hforgets, hj]

/-- What an edit writes to a slot depends on its owner. -/
theorem Owns.contact_edit (h : d.Owns owner s) (hd : d.Sound) :
    (d.edit x).contact s =
      { d.contact s with
        endpoints := (x.endpoints? owner).getD (d.contact s).endpoints
        lastSeen := max (d.contact s).lastSeen ((x.time? owner s).getD 0) } := by
  cases x with
  | announce j eps now =>
    by_cases hj : owner = some j
    · have hslot := (h.remote? j).2 hj
      have hself : (d.announce j eps now).remote? j = some s := remote?_announce_of_known hslot
      simp [Directory.edit, Edit.endpoints?, Edit.time?, hj, contact_announce_self hd hself, hslot,
        Contact.refreshed]
    · have hslot := mt (h.remote? j).1 hj
      simp [Directory.edit, Edit.endpoints?, Edit.time?, hj, contact_announce_ne hd h.opened hslot]
  | remove j => simp [Directory.edit, Edit.endpoints?, Edit.time?]
  | touch j now =>
    by_cases hj : owner = some j
    · simp [Directory.edit, Edit.endpoints?, Edit.time?, hj, contact_touch hd, (h.remote? j).2 hj,
        Contact.seen]
    · simp [Directory.edit, Edit.endpoints?, Edit.time?, hj, contact_touch hd, mt (h.remote? j).1 hj]
  | touchSlot t now =>
    by_cases hts : t = s
    · subst hts
      simp [Directory.edit, Edit.endpoints?, Edit.time?, touchSlot, contact_modify _ h.opened,
        Contact.seen]
    · simp [Directory.edit, Edit.endpoints?, Edit.time?, hts, touchSlot, contact, modify, List.getD]
  | clear => simp [Directory.edit, Edit.endpoints?, Edit.time?, clear, contact]

/-- What a history writes to a slot as long as its owner is not forgotten. -/
theorem Owns.foldl (xs : List Edit) (h : d.Owns owner s) (hd : d.Sound)
    (hkeeps : ∀ i, owner = some i → ∀ x ∈ xs, x.forgets i = false) :
    (xs.foldl Directory.edit d).Owns owner s ∧
      (xs.foldl Directory.edit d).contact s =
        { d.contact s with
          endpoints := (xs.filterMap (Edit.endpoints? owner)).getLast?.getD (d.contact s).endpoints
          lastSeen := (xs.filterMap (Edit.time? owner s)).foldl max (d.contact s).lastSeen } := by
  induction xs generalizing d with
  | nil => exact ⟨h, rfl⟩
  | cons x xs ih =>
    have hnow := h.edit (x := x) fun i hi => hkeeps i hi x (by simp)
    obtain ⟨howns, hcontact⟩ := ih hnow (sound_edit hd) fun i hi y hy => hkeeps i hi y (by simp [hy])
    refine ⟨howns, ?_⟩
    rw [List.foldl_cons, hcontact, h.contact_edit hd]
    cases hendpoints : x.endpoints? owner <;> cases htime : x.time? owner s <;>
      simp [hendpoints, htime, List.getLast?_cons]

/-- A slot that was opened is somebody's or nobody's. -/
theorem exists_owns (hd : d.Sound) (hs : s < d.slots.length) : ∃ owner, d.Owns owner s := by
  by_cases hnobody : ∀ i, d.remote? i ≠ some s
  · exact ⟨none, owns_none hs hnobody⟩
  · simp only [ne_eq, not_forall, not_not] at hnobody
    obtain ⟨i, hi⟩ := hnobody
    exact ⟨some i, hd.owns hi⟩

/-- No history takes a slot back in time, whoever it belongs to meanwhile. -/
theorem lastSeen_le_foldl (hd : d.Sound) (hs : s < d.slots.length) :
    (d.contact s).lastSeen ≤ ((xs.foldl edit d).contact s).lastSeen := by
  induction xs generalizing d with
  | nil => simp
  | cons x xs ih =>
    obtain ⟨owner, howner⟩ := exists_owns hd hs
    have hnow : (d.contact s).lastSeen ≤ ((d.edit x).contact s).lastSeen := by
      rw [howner.contact_edit hd]
      exact Nat.le_max_left _ _
    have hopened : s < (d.edit x).slots.length := Nat.lt_of_lt_of_le hs length_le_edit
    exact Nat.le_trans hnow (ih (sound_edit hd) hopened)

theorem Given.lt (h : Given history s) : s < (after history).slots.length := by
  obtain ⟨earlier, i, ⟨more, rfl⟩, hi⟩ := h
  rw [after_append]
  exact Nat.lt_of_lt_of_le (sound_after.exists_slot hi) length_le_foldl

/-! ## The two accounts -/

/-- An identity that is announced when it is not known gets the next slot and keeps it until it is
forgotten, and what stands there is what was written to it. -/
theorem owns_after_announce (eps : EndpointSet) (now : Nat) (hnew : ¬Announced pre i)
    (hpost : ∀ x ∈ post, x.forgets i = false) :
    (after (pre ++ .announce i eps now :: post)).Owns (some i) (after pre).slots.length ∧
      (after (pre ++ .announce i eps now :: post)).contact (after pre).slots.length =
        ⟨i, (post.filterMap (Edit.endpoints? (some i))).getLast?.getD eps,
          (post.filterMap (Edit.time? (some i) (after pre).slots.length)).foldl max now⟩ := by
  have hunknown : (after pre).remote? i = none := by
    rw [← isRemote_after, Bool.not_eq_true] at hnew
    exact remote?_eq_none hnew
  have hopened : ((after pre).announce i eps now).remote? i = some (after pre).slots.length := by
    simp [remote?_announce, hunknown]
  have hcontact := contact_announce_self sound_after hopened
  rw [hunknown] at hcontact
  have hsound : ((after pre).announce i eps now).Sound := sound_after.announce
  obtain ⟨howns, hwritten⟩ := (hsound.owns hopened).foldl post hsound
    fun j hj => Option.some.inj hj ▸ hpost
  rw [after_append, List.foldl_cons, edit]
  exact ⟨howns, by rw [hwritten, hcontact]⟩

/-- **Contacts follow their history.** An identity is known exactly if it was announced and has not
been forgotten since. From the announcement that made it known until it is forgotten it has one slot,
which nobody was given before; there stand the endpoints that were announced last, and the greatest
of the times that were written for it. Nothing takes a slot back in time. The slot of a forgotten
identity is nobody's for ever, keeps its endpoints, and only those write to it who were given its
number; they write nothing to any other slot. -/
theorem contacts_follow_history (history : List Edit) :
    (∀ i, (after history).isRemote i = true ↔ Announced history i) ∧
    (∀ pre i eps now post, history = pre ++ .announce i eps now :: post → ¬Announced pre i →
      (∀ x ∈ post, x.forgets i = false) →
      ∃ s, ¬Given pre s ∧
        (∀ later, later <+: post →
          (after (pre ++ .announce i eps now :: later)).remote? i = some s) ∧
        ((after history).contact s).identity = i ∧
        ((.announce i eps now :: post).filterMap (Edit.endpoints? (some i))).getLast? =
          some ((after history).contact s).endpoints ∧
        ((.announce i eps now :: post).filterMap (Edit.time? (some i) s)).max? =
          some ((after history).contact s).lastSeen) ∧
    (∀ pre post s, history = pre ++ post → Given pre s →
      ((after pre).contact s).lastSeen ≤ ((after history).contact s).lastSeen ∧
      ((∀ i, (after pre).remote? i ≠ some s) →
        (∀ i, (after history).remote? i ≠ some s) ∧
        ((after history).contact s).identity = ((after pre).contact s).identity ∧
        ((after history).contact s).endpoints = ((after pre).contact s).endpoints ∧
        (((after pre).contact s).lastSeen :: post.filterMap (Edit.time? none s)).max? =
          some ((after history).contact s).lastSeen)) ∧
    ∀ s now, (∀ i, ((after history).edit (.touchSlot s now)).remote? i = (after history).remote? i) ∧
      ∀ t, t ≠ s → ((after history).edit (.touchSlot s now)).contact t = (after history).contact t := by
  refine ⟨fun i => isRemote_after, ?_, ?_, fun s now => ⟨fun i => rfl, fun t hts => ?_⟩⟩
  · rintro pre i eps now post rfl hnew hpost
    refine ⟨(after pre).slots.length, fun hgiven => Nat.lt_irrefl _ hgiven.lt, ?_, ?_⟩
    · intro later hlater
      have hkept : ∀ x ∈ later, x.forgets i = false := fun x hx => hpost x (hlater.subset hx)
      exact ((owns_after_announce eps now hnew hkept).1.remote? i).2 rfl
    · have hcontact := (owns_after_announce eps now hnew hpost).2
      refine ⟨by rw [hcontact], ?_, ?_⟩
      · simp [hcontact, Edit.endpoints?, List.getLast?_cons]
      · simp [hcontact, Edit.time?, List.max?_cons', -List.max?_cons]
  · rintro pre post s rfl hgiven
    rw [after_append]
    refine ⟨lastSeen_le_foldl sound_after hgiven.lt, fun hnobody => ?_⟩
    obtain ⟨howns, hcontact⟩ := (owns_none hgiven.lt hnobody).foldl post sound_after (by simp)
    have hnothing : post.filterMap (Edit.endpoints? none) = [] := by
      simp only [List.filterMap_eq_nil_iff]
      intro x hx
      cases x <;> simp [Edit.endpoints?]
    refine ⟨fun i => mt (howns.remote? i).1 (by simp), by simp [hcontact], ?_, ?_⟩
    · simp [hcontact, hnothing]
    · simp [hcontact, List.max?_cons', -List.max?_cons]
  · simp [edit, touchSlot, contact, modify, List.getD, Ne.symm hts]

/-- An agent is announced, touched out of order, forgotten and announced again, and then somebody
writes to its first slot. -/
def comeback (i : Identity) : List Edit :=
  [.announce i .empty 7, .touch i 9, .touch i 3, .remove i, .announce i .empty 5, .touchSlot 0 20]

theorem contacts_follow_history_comeback :
    (after (comeback default)).remote? default = some 1 ∧
    ((after (comeback default)).contact 0).lastSeen = 20 ∧
    ((after (comeback default)).contact 1).lastSeen = 5 ∧
    ∃ s, ¬Given ((comeback default).take 4) s ∧
      (after (comeback default)).remote? default = some s := by
  obtain ⟨hknown, hslot, -⟩ := contacts_follow_history (comeback default)
  have hforgotten : ¬Announced ((comeback default).take 4) default := by
    rw [← (contacts_follow_history ((comeback default).take 4)).1]
    decide
  obtain ⟨s, hnew, hlater, -⟩ := hslot ((comeback default).take 4) default .empty 5
    [.touchSlot 0 20] rfl hforgotten (by simp [Edit.forgets])
  exact ⟨by decide, by decide, by decide, s, hnew, hlater _ (List.prefix_refl _)⟩

end Directory

end Overlay
