import Overlay.Proofs.Interleaving.Basic

/-!
# Whom a liveness pass gives up

A slot shows when the latest call began that has touched it; this is what `Tallies` says. A pass looks
at slots, so it gives up a contact exactly when every call that has touched the slot it looks at
began long enough ago.

A slot does not show everything. A call that still waits has touched nothing, and an agent that has
left and come back has a new slot, while the pass goes on looking at the old one. `Moment.Unseen`
names these two cases, and there are no others.
-/

namespace Overlay

/-! ## What slots show -/

/-- Each slot shows when the latest of the calls began that have touched it, and the slot of a known
contact shows no less than any call of the contact that is over. -/
structure Tallies (d : Directory) (calls : List Call) : Prop where
  sound : d.Sound
  exists_slot : ∀ {c s}, c ∈ calls → c.ended = some (some s) → s < d.slots.length
  bound : ∀ {c s}, c ∈ calls → c.ended = some (some s) → c.began ≤ (d.contact s).lastSeen
  attained : ∀ {s}, s < d.slots.length →
    ∃ c ∈ calls, c.ended = some (some s) ∧ c.began = (d.contact s).lastSeen
  current : ∀ {c s}, c ∈ calls → c.ended ≠ none → d.remote? c.sender = some s →
    c.began ≤ (d.contact s).lastSeen

/-- What the end of a call does to slots, if the call began at a time: the slot of the sender is
touched, and if the sender has just become known it is a new one. -/
structure Hears (d d' : Directory) (sender : Identity) (began : Nat) : Prop where
  sound : d'.Sound
  length_le : d.slots.length ≤ d'.slots.length
  opened : ∀ {s}, d.slots.length ≤ s → s < d'.slots.length → d'.remote? sender = some s
  remote? : ∀ {j s}, d'.remote? j = some s → d.remote? j = some s ∨ j = sender
  lastSeen : ∀ s, (d'.contact s).lastSeen =
    if d'.remote? sender = some s then max (d.contact s).lastSeen began else (d.contact s).lastSeen

variable {d d' : Directory} {calls calls' : List Call} {i : Identity} {s : Slot} {began : Nat}

theorem hears_touch (h : d.Sound) : Hears d (d.touch i began) i began where
  sound := h.touch
  length_le := by simp
  opened := by
    intro s hle hlt
    rw [Directory.length_touch] at hlt
    exact absurd hlt (Nat.not_lt.2 hle)
  remote? := by
    intro j s hj
    exact .inl (by simpa using hj)
  lastSeen := by
    intro s
    rw [Directory.contact_touch h, Directory.remote?_touch]
    split <;> rfl

theorem hears_departure (h : d.Sound) : Hears d ((d.removeRemote i).touch i began) i began where
  sound := h.removeRemote.touch
  length_le := by simp [Directory.removeRemote]
  opened := by
    intro s hle hlt
    rw [Directory.length_touch] at hlt
    exact absurd hlt (Nat.not_lt.2 hle)
  remote? := by
    intro j s hj
    rw [Directory.remote?_touch, Directory.remote?_removeRemote] at hj
    split at hj
    · contradiction
    · exact .inl hj
  lastSeen := by
    intro s
    rw [Directory.contact_touch h.removeRemote, Directory.remote?_touch]
    simp

theorem hears_arrival (h : d.Sound) (eps : EndpointSet) :
    Hears d ((d.announce i eps began).touch i began) i began where
  sound := h.announce.touch
  length_le := by
    rw [Directory.length_touch]
    exact Directory.length_le_announce
  opened := by
    intro s hle hlt
    rw [Directory.length_touch] at hlt
    rw [Directory.remote?_touch, Directory.remote?_announce, if_pos rfl]
    cases hi : d.remote? i with
    | some t =>
      rw [Directory.length_announce_of_known hi] at hlt
      exact absurd hlt (Nat.not_lt.2 hle)
    | none =>
      rw [Directory.length_announce_of_unknown hi] at hlt
      rw [Option.getD_none, Nat.le_antisymm hle (Nat.le_of_lt_succ hlt)]
  remote? := by
    intro j s hj
    rw [Directory.remote?_touch, Directory.remote?_announce] at hj
    split at hj
    · next hji => exact .inr hji
    · exact .inl hj
  lastSeen := by
    intro s
    rw [Directory.contact_touch h.announce, Directory.remote?_touch]
    have hseen : ((d.announce i eps began).contact s).lastSeen = _ := Directory.lastSeen_announce h s
    by_cases hs : (d.announce i eps began).remote? i = some s
    · rw [if_pos hs] at hseen ⊢
      rw [if_pos hs, Contact.seen, hseen, Nat.max_assoc, Nat.max_self]
    · rw [if_neg hs] at hseen ⊢
      rw [if_neg hs, hseen]

theorem Hears.le_lastSeen (h : Hears d d' i began) (s : Slot) :
    (d.contact s).lastSeen ≤ (d'.contact s).lastSeen := by
  rw [h.lastSeen]
  split
  · exact Nat.le_max_left _ _
  · exact Nat.le_refl _

theorem tallies_nil (h : d.Sound) (hs : d.slots = []) : Tallies d [] :=
  ⟨h, by simp, by simp, by simp [hs], by simp⟩

/-- A call comes to its end. The calls that are over afterwards are those that were and this one. If
its sender is known from now on only, no other call began later. -/
theorem Tallies.hears (h : Tallies d calls) (hd : Hears d d' i began)
    (hnew : ∀ c, c.ended ≠ none → (c ∈ calls' ↔ c ∈ calls ∨ c = ⟨i, began, some (d'.remote? i)⟩))
    (hlate : (∀ c ∈ calls, c.began ≤ began) ∨ d'.remotes = d.remotes) : Tallies d' calls' := by
  have hself : ∀ {t}, d'.remote? i = some t → began ≤ (d'.contact t).lastSeen := by
    intro t ht
    rw [hd.lastSeen, if_pos ht]
    exact Nat.le_max_right _ _
  constructor
  case sound => exact hd.sound
  case exists_slot =>
    intro c t hc ht
    rcases (hnew c (by simp [ht])).1 hc with hc | rfl
    · exact Nat.lt_of_lt_of_le (h.exists_slot hc ht) hd.length_le
    · exact hd.sound.exists_slot (Option.some.inj ht)
  case bound =>
    intro c t hc ht
    rcases (hnew c (by simp [ht])).1 hc with hc | rfl
    · exact Nat.le_trans (h.bound hc ht) (hd.le_lastSeen t)
    · exact hself (Option.some.inj ht)
  case attained =>
    intro t ht
    -- The slot shows this call if that has touched it and none that touched it began later.
    by_cases hi : d'.remote? i = some t ∧ (d.contact t).lastSeen ≤ began
    · refine ⟨⟨i, began, some (d'.remote? i)⟩, (hnew _ (by simp)).2 (.inr rfl), by rw [hi.1], ?_⟩
      rw [hd.lastSeen, if_pos hi.1]
      exact (Nat.max_eq_right hi.2).symm
    · have hlt : t < d.slots.length := by
        refine Nat.lt_of_not_le fun hle => hi ⟨hd.opened hle ht, ?_⟩
        rw [Directory.contact_of_length_le hle]
        exact Nat.zero_le _
      obtain ⟨c, hc, hct, hb⟩ := h.attained hlt
      refine ⟨c, (hnew c (by simp [hct])).2 (.inl hc), hct, ?_⟩
      rw [hd.lastSeen, hb]
      split
      · next hit => exact (Nat.max_eq_left (by have := mt (And.intro hit) hi; omega)).symm
      · rfl
  case current =>
    intro c t hc hended ht
    rcases (hnew c hended).1 hc with hc | rfl
    · rcases hd.remote? ht with hd' | hci
      · exact Nat.le_trans (h.current hc hended hd') (hd.le_lastSeen t)
      · rcases hlate with hlate | hsame
        · exact Nat.le_trans (hlate c hc) (hself (hci ▸ ht))
        · have hd' : d.remote? c.sender = some t := by rwa [Directory.remote?, ← hsame]
          exact Nat.le_trans (h.current hc hended hd') (hd.le_lastSeen t)
    · exact hself ht

theorem Tallies.congr (h : Tallies d calls)
    (hsame : ∀ c, c.ended ≠ none → (c ∈ calls' ↔ c ∈ calls)) : Tallies d calls' where
  sound := h.sound
  exists_slot := fun hc ht => h.exists_slot ((hsame _ (by simp [ht])).1 hc) ht
  bound := fun hc ht => h.bound ((hsame _ (by simp [ht])).1 hc) ht
  attained := by
    intro t ht
    obtain ⟨c, hc, hct, hb⟩ := h.attained ht
    exact ⟨c, (hsame c (by simp [hct])).2 hc, hct, hb⟩
  current := fun hc hended ht => h.current ((hsame _ hended).1 hc) hended ht

/-- To forget contacts, or to change who is registered, leaves what slots show. -/
theorem Tallies.forget (h : Tallies d calls) (hslots : d'.slots = d.slots)
    (hremote : ∀ {j t}, d'.remote? j = some t → d.remote? j = some t) : Tallies d' calls := by
  have hcontact : ∀ t, d'.contact t = d.contact t := by
    intro t
    rw [Directory.contact, hslots, Directory.contact]
  constructor
  case sound =>
    constructor
    · intro j t ht
      rw [hslots]
      exact h.sound.exists_slot (hremote ht)
    · intro j t ht
      rw [hcontact]
      exact h.sound.identity (hremote ht)
  case exists_slot =>
    intro c t hc ht
    rw [hslots]
    exact h.exists_slot hc ht
  case bound =>
    intro c t hc ht
    rw [hcontact]
    exact h.bound hc ht
  case attained =>
    intro t ht
    rw [hslots] at ht
    rw [hcontact]
    exact h.attained ht
  case current =>
    intro c t hc hended ht
    rw [hcontact]
    exact h.current hc hended (hremote ht)

/-! ## What holds at every moment -/

namespace Engine

variable {e : Engine} {m : Message}

@[simp] theorem clock_touched {now : Nat} : (e.touched i now).clock = e.clock := rfl

@[simp] theorem remote?_touched {now : Nat} {j : Identity} :
    (e.touched i now).directory.remote? j = e.directory.remote? j :=
  Directory.remote?_touch

@[simp] theorem clock_informed : (e.informed m).clock = e.clock := by
  unfold informed
  split
  · split
    · next change _ => cases change <;> rfl
    · rfl
  · rfl

/-- The end of a call that has not waited. -/
theorem hears_informed (h : e.directory.Sound) :
    Hears e.directory ((e.informed m).touched m.sender e.clock).directory m.sender e.clock := by
  unfold informed
  split
  · split
    · next change _ =>
      cases change with
      | arrival eps => exact hears_arrival h eps
      | departure => exact hears_departure h
    · exact hears_touch h
  · exact hears_touch h

end Engine

namespace Moment

variable {w w' w₀ : Moment} {mv : Move} {moves : List Move} {p : Nat}
  {rest : List (Identity × Slot)}

def advances (w : Moment) : Move → Bool
  | .setClock now => w.engine.clock ≤ now
  | _ => true

def forward (w : Moment) : List Move → Bool
  | [] => true
  | mv :: rest =>
    w.advances mv &&
      match w.move? mv with
      | some v => v.forward rest
      | none => true

/-- What holds at every moment if the clock never goes back: slots show what they should, no call
began later than now, and passes look at slots that exist. -/
structure Kept (w : Moment) : Prop where
  tallies : Tallies w.engine.directory w.calls
  began : ∀ {c}, c ∈ w.calls → c.began ≤ w.engine.clock
  asked : ∀ {q c}, q ∈ w.passes → q.asked = some c → c.2 < w.engine.directory.slots.length
  rest : ∀ {q c}, q ∈ w.passes → c ∈ q.rest → c.2 < w.engine.directory.slots.length

theorem IsFresh.kept (h : w.IsFresh) : w.Kept where
  tallies := by
    rw [h.calls, h.directory]
    exact tallies_nil Directory.sound_empty rfl
  began := by simp [h.calls]
  asked := by simp [h.passes]
  rest := by simp [h.passes]

/-- A step that leaves passes alone and closes no slot. -/
theorem Kept.of_calls (h : w.Kept) (htallies : Tallies w'.engine.directory w'.calls)
    (hbegan : ∀ {c}, c ∈ w'.calls → c.began ≤ w'.engine.clock) (hpasses : w'.passes = w.passes)
    (hlen : w.engine.directory.slots.length ≤ w'.engine.directory.slots.length) : w'.Kept where
  tallies := htallies
  began := hbegan
  asked := by
    intro q c hq hc
    rw [hpasses] at hq
    exact Nat.lt_of_lt_of_le (h.asked hq hc) hlen
  rest := by
    intro q c hq hc
    rw [hpasses] at hq
    exact Nat.lt_of_lt_of_le (h.rest hq hc) hlen

/-- A step that forgets contacts, or changes who is registered. -/
theorem Kept.forget (h : w.Kept) {d : Directory} (hslots : d.slots = w.engine.directory.slots)
    (hremote : ∀ {j t}, d.remote? j = some t → w.engine.directory.remote? j = some t) :
    (w.withDirectory d).Kept :=
  h.of_calls (h.tallies.forget hslots hremote) h.began rfl (Nat.le_of_eq (by rw [← hslots]; rfl))

theorem Kept.receive (h : w.Kept) (m : Message) : (w.receive m).Kept := by
  unfold Moment.receive
  by_cases hl : w.engine.lingers m = true
  · rw [if_pos hl]
    refine h.of_calls (h.tallies.congr fun c hended => ?_) ?_ rfl (Nat.le_refl _)
    · rw [List.mem_append, List.mem_singleton, or_iff_left]
      rintro rfl
      exact hended rfl
    · intro c hc
      rcases List.mem_append.1 hc with hc | hc
      · exact h.began hc
      · exact Nat.le_of_eq (by rw [List.mem_singleton.1 hc])
  · rw [if_neg hl]
    have hd := Engine.hears_informed (m := m) h.tallies.sound
    refine h.of_calls (h.tallies.hears hd (fun c _ => ?_) (.inl fun c hc => h.began hc)) ?_ rfl
      hd.length_le
    · rw [List.mem_append, List.mem_singleton, Engine.remote?_touched]
    · intro c hc
      rw [Engine.clock_touched, Engine.clock_informed]
      rcases List.mem_append.1 hc with hc | hc
      · exact h.began hc
      · exact Nat.le_of_eq (by rw [List.mem_singleton.1 hc])

/-- A call that has waited comes to its end. -/
theorem Kept.conclude (h : w.Kept) {c : Nat} {sender : Identity} {began : Nat}
    (hc : w.calls[c]? = some ⟨sender, began, none⟩) :
    Kept { w with
      engine := w.engine.touched sender began
      calls := w.calls.set c ⟨sender, began, some (w.engine.directory.remote? sender)⟩ } := by
  have hd : Hears w.engine.directory (w.engine.directory.touch sender began) sender began :=
    hears_touch h.tallies.sound
  refine h.of_calls (h.tallies.hears hd (fun c' hended => ?_) (.inr Directory.remotes_touch)) ?_ rfl
    hd.length_le
  · rw [Engine.remote?_touched]
    constructor
    · exact List.mem_or_eq_of_mem_set
    · rintro (hmem | rfl)
      · obtain ⟨k, hk⟩ := List.mem_iff_getElem?.1 hmem
        have hne : c ≠ k := by
          rintro rfl
          rw [hk, Option.some.injEq] at hc
          exact hended (by rw [hc])
        exact List.mem_iff_getElem?.2 ⟨k, by rw [List.getElem?_set_ne hne]; exact hk⟩
      · exact List.mem_set (List.getElem?_eq_some_iff.1 hc).1 _
  · intro c' hc'
    rcases List.mem_or_eq_of_mem_set hc' with hmem | rfl
    · exact h.began hmem
    · have hbegan := h.began (List.mem_of_getElem? hc)
      exact hbegan

/-- A pass comes on, and looks at no other slots than before. -/
theorem Kept.setPass (h : w.Kept) {q : Pass} (hq : w.passes[p]? = some q) {q' : Pass}
    (hasked : ∀ {c}, q'.asked = some c → q.asked = some c ∨ c ∈ q.rest)
    (hrest : ∀ {c}, c ∈ q'.rest → c ∈ q.rest) :
    Kept { w with passes := w.passes.set p q' } where
  tallies := h.tallies
  began := h.began
  asked := by
    intro q₁ c hq₁ hc
    rcases List.mem_or_eq_of_mem_set hq₁ with hmem | rfl
    · exact h.asked hmem hc
    · rcases hasked hc with hc | hc
      · exact h.asked (List.mem_of_getElem? hq) hc
      · exact h.rest (List.mem_of_getElem? hq) hc
  rest := by
    intro q₁ c hq₁ hc
    rcases List.mem_or_eq_of_mem_set hq₁ with hmem | rfl
    · exact h.rest hmem hc
    · exact h.rest (List.mem_of_getElem? hq) (hrest hc)

theorem Kept.beginPass (h : w.Kept) {order : List (Identity × Slot)}
    (hperm : order.Perm w.engine.directory.remotes.toList) :
    Kept { w with passes := w.passes ++ [⟨none, order⟩] } where
  tallies := h.tallies
  began := h.began
  asked := by
    intro q c hq hc
    rcases List.mem_append.1 hq with hq | hq
    · exact h.asked hq hc
    · rw [List.mem_singleton.1 hq] at hc
      contradiction
  rest := by
    intro q c hq hc
    rcases List.mem_append.1 hq with hq | hq
    · exact h.rest hq hc
    · rw [List.mem_singleton.1 hq] at hc
      exact h.tallies.sound.exists_slot (Register.mem_toList.1 (hperm.mem_iff.1 hc))

theorem Kept.resolve (h : w.Kept) {c : Identity × Slot}
    (hp : w.passes[p]? = some ⟨some c, rest⟩) :
    Kept { w with
      engine := (w.engine.evicted? c.1 c.2).getD w.engine
      passes := w.passes.set p ⟨none, rest⟩ } := by
  have hset : Kept { w with passes := w.passes.set p ⟨none, rest⟩ } :=
    h.setPass hp (by simp) (by simp)
  unfold Engine.evicted?
  split
  · refine hset.forget rfl ?_
    intro j t ht
    rw [Directory.remote?_removeRemote] at ht
    split at ht
    · contradiction
    · exact ht
  · exact hset

/-- A step keeps it, unless it sets the clock back. -/
theorem Kept.move (h : w.Kept) (hm : w.move? mv = some w')
    (hclock : w.advances mv = true) : w'.Kept := by
  cases mv with
  | receive m => cases hm; exact h.receive m
  | conclude c =>
    simp only [move?] at hm
    split at hm
    · next hc => cases hm; exact h.conclude hc
    · contradiction
  | beginPass order =>
    simp only [move?] at hm
    split at hm
    · next hperm => cases hm; exact h.beginPass hperm
    · contradiction
  | look q =>
    simp only [move?] at hm
    split at hm
    · next c rest hq =>
      cases hm
      refine h.setPass hq ?_ (List.mem_cons_of_mem _)
      intro c' hc'
      split at hc'
      · cases hc'
        exact .inr List.mem_cons_self
      · contradiction
    · contradiction
  | resolve q =>
    simp only [move?] at hm
    split at hm
    · next hq => cases hm; exact h.resolve hq
    · contradiction
  | register i a =>
    simp only [move?, Directory.insertLocal?, Option.map_map, Option.map_eq_some_iff] at hm
    obtain ⟨locals, -, rfl⟩ := hm
    exact h.forget rfl id
  | unregister i => cases hm; exact h.forget rfl id
  | withdraw i a => cases hm; exact h.forget rfl id
  | setClock now =>
    cases hm
    have hle : w.engine.clock ≤ now := of_decide_eq_true hclock
    exact h.of_calls h.tallies (fun hc => Nat.le_trans (h.began hc) hle) rfl (Nat.le_refl _)
  | forget =>
    cases hm
    refine h.forget rfl ?_
    intro j t ht
    simp [Directory.clear, Directory.remote?] at ht
  | tend fanout nextPass present => cases hm; exact h.of_calls h.tallies h.began rfl (Nat.le_refl _)

theorem Kept.run (h : w.Kept) (hrun : w.run? moves = some w') (hclock : w.forward moves = true) :
    w'.Kept := by
  induction moves generalizing w with
  | nil => cases hrun; exact h
  | cons mv rest ih =>
    obtain ⟨v, hv, hrest⟩ := run?_cons hrun
    rw [forward, Bool.and_eq_true, hv] at hclock
    exact ih (h.move hv hclock.1) hrest hclock.2

/-! ## Eviction -/

/-- A pass removes an identity when it looks at it again. -/
def Evicts (w : Moment) (p : Nat) (i : Identity) : Prop :=
  w.engine.directory.isRemote i = true ∧
    ∃ w', w.move? (.resolve p) = some w' ∧ w'.engine.directory.isRemote i = false

/-- A call began long enough ago for its sender to be given up. -/
def Outdated (w : Moment) (c : Call) : Prop :=
  c.began + w.engine.settings.evictionMillis ≤ w.engine.clock

/-- All calls that have touched a slot began long enough ago. -/
def Silent (w : Moment) (s : Slot) : Prop :=
  ∀ c ∈ w.calls, c.ended = some (some s) → w.Outdated c

/-- There is a recent call of an identity that a pass which looks at a slot does not see: either the
call still waits, or the slot is no longer that of the identity. -/
def Unseen (w : Moment) (i : Identity) (s : Slot) : Prop :=
  ∃ c ∈ w.calls, c.sender = i ∧ ¬w.Outdated c ∧
    (c.ended = none ∨ w.engine.directory.remote? i ≠ some s)

instance (c : Call) : Decidable (w.Outdated c) := Nat.decLe _ _

theorem Kept.lastSeen_le (h : w.Kept) {s : Slot} (hs : s < w.engine.directory.slots.length) :
    (w.engine.directory.contact s).lastSeen ≤ w.engine.clock := by
  obtain ⟨c, hc, -, hb⟩ := h.tallies.attained hs
  rw [← hb]
  exact h.began hc

theorem Kept.isLost_iff (h : w.Kept) {s : Slot} (hs : s < w.engine.directory.slots.length) :
    w.engine.isLost s = true ↔ w.Silent s := by
  have hle := h.lastSeen_le hs
  rw [Engine.isLost, Engine.idle, decide_eq_true_iff]
  constructor
  · intro hlost c hc hct
    have hb := h.tallies.bound hc hct
    unfold Outdated
    omega
  · intro hsilent
    obtain ⟨c, hc, hct, hb⟩ := h.tallies.attained hs
    have hold := hsilent c hc hct
    unfold Outdated at hold
    omega

theorem evicts_iff_isLost {i : Identity} {s : Slot} (hp : w.passes[p]? = some ⟨some (i, s), rest⟩) :
    w.Evicts p i ↔ w.engine.directory.isRemote i = true ∧ w.engine.isLost s = true := by
  unfold Evicts
  simp only [move?, hp, Option.some.injEq, exists_eq_left', Engine.evicted?]
  refine and_congr_right fun hi => ?_
  rw [hi, Bool.and_true]
  by_cases hs : w.engine.isLost s = true
  · simp [hs, Directory.isRemote, Register.contains, Directory.removeRemote]
  · simp [hs, hi]

/-- **A pass gives up whom it has not heard of in the slot it looks at.** A pass that looks at a
contact again removes it exactly if it is known and all calls that have touched the slot began
long enough ago. Then all calls of the contact did, whatever else happened at the same time, unless
there is one that the pass does not see. -/
theorem evicts_iff_silent (hfresh : w₀.IsFresh) (hrun : w₀.run? moves = some w)
    (hclock : w₀.forward moves = true) {i : Identity} {s : Slot}
    (hp : w.passes[p]? = some ⟨some (i, s), rest⟩) :
    (w.Evicts p i ↔ w.engine.directory.isRemote i = true ∧ w.Silent s) ∧
      (w.Evicts p i → ((∀ c ∈ w.calls, c.sender = i → w.Outdated c) ↔ ¬w.Unseen i s)) := by
  have h := hfresh.kept.run hrun hclock
  have hs : s < w.engine.directory.slots.length := h.asked (List.mem_of_getElem? hp) rfl
  have hiff : w.Evicts p i ↔ w.engine.directory.isRemote i = true ∧ w.Silent s := by
    rw [evicts_iff_isLost hp, h.isLost_iff hs]
  refine ⟨hiff, fun hevicts => ⟨?_, ?_⟩⟩
  · rintro hall ⟨c, hc, hci, hold, -⟩
    exact hold (hall c hc hci)
  · intro hseen c hc hci
    refine Decidable.byContradiction fun hold => hseen ⟨c, hc, hci, hold, ?_⟩
    -- A call that is over has been heard of in the slot of its sender, and that slot is silent.
    by_cases hended : c.ended = none
    · exact .inl hended
    · refine .inr fun hcur => hold ?_
      subst hci
      have hb := h.tallies.current hc hended hcur
      have hlost := (h.isLost_iff hs).2 (hiff.1 hevicts).2
      rw [Engine.isLost, Engine.idle, decide_eq_true_iff] at hlost
      have hle := h.lastSeen_le hs
      unfold Outdated
      omega

/-! ### An agent that comes back

The smallest run in which a pass does not see what it should: while its ping is being sent the agent
leaves and announces itself again. It is heard of at the very time at which it is given up.
-/

/-- An engine that gives its contacts up after thirty milliseconds, before anything happens. -/
def hasty : Moment :=
  ⟨{ (default : Engine) with settings := ⟨.ofMillis 10, 3, .ofMillis 0, .inline⟩ }, [], []⟩

/-- An agent is heard of, is quiet for a hundred milliseconds, and comes back during its ping. -/
def comeback (x : Identity) : List Move :=
  [.receive (.presence default x hasty.engine.identity .empty), .setClock 100,
    .beginPass [(x, 0)], .look 0, .receive (.absence default x hasty.engine.identity),
    .receive (.presence default x hasty.engine.identity .empty)]

theorem isFresh_hasty : hasty.IsFresh := ⟨rfl, rfl, rfl⟩

theorem evicts_iff_silent_comeback :
    ∃ w, hasty.run? (comeback (.agent default)) = some w ∧
      (w.Evicts 0 (.agent default) ↔
        w.engine.directory.isRemote (.agent default) = true ∧ w.Silent 0) := by
  have hclock : hasty.forward (comeback (.agent default)) = true := by decide
  obtain ⟨w, hrun, hp⟩ : ∃ w, hasty.run? (comeback (.agent default)) = some w ∧
      w.passes[0]? = some ⟨some (.agent default, 0), []⟩ := ⟨_, rfl, rfl⟩
  exact ⟨w, hrun, (evicts_iff_silent isFresh_hasty hrun hclock hp).1⟩

/-- A pass gives up an agent that has just announced itself. -/
theorem evicts_comeback :
    ∃ w, hasty.IsFresh ∧ hasty.run? (comeback (.agent default)) = some w ∧
      hasty.forward (comeback (.agent default)) = true ∧
      0 < w.engine.settings.evictionMillis ∧ w.Evicts 0 (.agent default) ∧
      ∃ c ∈ w.calls, c.sender = .agent default ∧ ¬w.Outdated c :=
  ⟨_, isFresh_hasty, rfl, by decide, by decide, ⟨by decide, _, rfl, by decide⟩,
    ⟨.agent default, 100, some (some 1)⟩, by decide, rfl, by decide⟩

end Moment

end Overlay
