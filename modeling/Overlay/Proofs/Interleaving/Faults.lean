import Overlay.Fabric.Liveness
import Overlay.Proofs.Interleaving.Basic
import Mathlib.Data.List.Nodup

/-!
# What liveness passes send

A pass sends a ping when it looks at a quiet contact, and hands a fault to the listeners when it
gives one up. Several passes may be under way at once and have the same contact before them, and in
between the contact may leave and come back. Still there is one fault for each time that a pass has
removed an identity: to remove it and to find that it was there is one step, so of all the passes
that find it lost only one gets to report it.

A run is looked at stride by stride here, so that what is sent and what becomes of the contacts can
be counted side by side. It may begin at any moment, so what is said of runs is said of all their
stretches.
-/

namespace Overlay

/-- Whether a message reports that an agent has been given up. -/
def Message.reports (x : Identity) (m : Message) : Bool :=
  match m.kind, m.payload with
  | .fault, .fault about => about == x
  | _, _ => false

namespace Engine

/-- The ping that a pass sends when it looks at a contact, if that is quiet. -/
def ping? (e : Engine) (uuid : Uuid) (contact : Identity) (s : Slot) : Option Message :=
  if e.isQuiet s then some (.ping uuid e.identity contact) else none

/-- The fault that a pass hands to the listeners, if it gives the identity up. -/
def fault? (e : Engine) (uuid : Uuid) (contact : Identity) (s : Slot) : Option Message :=
  (e.evicted? contact s).map fun x => .fault uuid x.identity contact

end Engine

namespace Moment

/-- A move that was made, with the identifier that was next to be given to a message. -/
structure Stride where
  before : Moment
  move : Move
  uuid : Uuid
  after : Moment

/-- The strides of a run, as far as its moves can be made. -/
def strides (w : Moment) : List (Move × Uuid) → List Stride
  | [] => []
  | (mv, uuid) :: rest =>
    match w.move? mv with
    | some v => ⟨w, mv, uuid, v⟩ :: v.strides rest
    | none => []

namespace Stride

/-- The ping that a pass sends in a stride, with the number of the pass. -/
def ping? (st : Stride) : Option (Nat × Message) :=
  match st.move with
  | .look p =>
    match st.before.passes[p]? with
    | some ⟨none, c :: _⟩ => (st.before.engine.ping? st.uuid c.1 c.2).map (p, ·)
    | _ => none
  | _ => none

/-- The fault that a pass hands to the listeners in a stride. -/
def fault? (st : Stride) : Option Message :=
  match st.move with
  | .resolve p =>
    match st.before.passes[p]? with
    | some ⟨some c, _⟩ => st.before.engine.fault? st.uuid c.1 c.2
    | _ => none
  | _ => none

def knew (x : Identity) (st : Stride) : Bool :=
  st.before.engine.directory.isRemote x

def knows (x : Identity) (st : Stride) : Bool :=
  st.after.engine.directory.isRemote x

/-- Whether a contact of an identity comes to be in a stride. -/
def creates (x : Identity) (st : Stride) : Bool :=
  !st.knew x && st.knows x

/-- Whether an identity ceases to be known in a stride. -/
def loses (x : Identity) (st : Stride) : Bool :=
  st.knew x && !st.knows x

def evicts (x : Identity) (st : Stride) : Bool :=
  match st.move with
  | .resolve _ => st.loses x
  | _ => false

/-- An identity announces its departure in a stride and was known until then. -/
def Departs (x : Identity) (st : Stride) : Prop :=
  ∃ m, st.move = .receive m ∧ m.sender = x ∧ st.before.engine.admits m = true ∧
    st.before.engine.reaction m = .membership .departure ∧ st.knew x = true

end Stride

/-- How many faults about an identity passes hand to the listeners. -/
def faultsAbout (x : Identity) (strides : List Stride) : Nat :=
  (strides.filterMap Stride.fault?).countP (Message.reports x)

def pingsTo (p : Nat) (x : Identity) (strides : List Stride) : Nat :=
  (strides.filterMap Stride.ping?).countP fun sent => sent.1 == p && sent.2.recipient == x

variable {w v : Moment} {mv : Move} {uuid : Uuid} {moves rest : List (Move × Uuid)} {x : Identity}
  {p : Nat} {st : Stride} {m : Message}

/-- The strides of a run are moves that were made. -/
theorem move?_of_mem_strides (h : st ∈ w.strides moves) : st.before.move? st.move = some st.after := by
  induction moves generalizing w with
  | nil => simp [strides] at h
  | cons mv moves ih =>
    simp only [strides] at h
    split at h
    · next v hv =>
      rcases List.mem_cons.1 h with rfl | h
      · exact hv
      · exact ih h
    · simp at h

/-! ## Faults -/

theorem identity_informed (e : Engine) : (e.informed m).identity = e.identity := by
  unfold Engine.informed
  split
  · split
    · next change _ => cases change <;> rfl
    · rfl
  · rfl

theorem identity_move (h : w.move? mv = some v) : v.engine.identity = w.engine.identity := by
  cases mv with
  | receive m =>
    cases h
    unfold receive
    split
    · rfl
    · exact identity_informed w.engine
  | conclude c | beginPass order | look q =>
    simp only [move?] at h
    split at h
    · cases h; rfl
    · contradiction
  | resolve q =>
    simp only [move?] at h
    split at h
    · cases h
      unfold Engine.evicted?
      split <;> rfl
    · contradiction
  | register i a =>
    simp only [move?, Option.map_eq_some_iff] at h
    obtain ⟨d, -, rfl⟩ := h
    rfl
  | unregister | withdraw | setClock | forget | tend => cases h; rfl

theorem identity_of_mem_strides (h : st ∈ w.strides moves) :
    st.before.engine.identity = w.engine.identity := by
  induction moves generalizing w with
  | nil => simp [strides] at h
  | cons mv moves ih =>
    simp only [strides] at h
    split at h
    · next v hv =>
      rcases List.mem_cons.1 h with rfl | h
      · rfl
      · rw [ih h, identity_move hv]
    · simp at h

/-- What it takes for a pass to look at a contact again, and what it does. -/
theorem move?_resolve (h : w.move? (.resolve p) = some v) :
    ∃ c rest, w.passes[p]? = some ⟨some c, rest⟩ ∧
      v = { w with
        engine := (w.engine.evicted? c.1 c.2).getD w.engine
        passes := w.passes.set p ⟨none, rest⟩ } := by
  simp only [move?] at h
  split at h
  · next c rest hp => exact ⟨c, rest, hp, (Option.some.inj h).symm⟩
  · contradiction

/-- **One stride.** A pass reports an identity exactly if it has just removed that. -/
theorem Stride.fault?_iff (h : st.before.move? st.move = some st.after) :
    st.fault? = some m ↔
      ∃ x, st.evicts x = true ∧ m = .fault st.uuid st.before.engine.identity x := by
  obtain ⟨w, mv, uuid, v⟩ := st
  cases mv with
  | resolve p =>
    obtain ⟨c, rest, hp, hv⟩ := move?_resolve h
    simp only at hv
    subst hv
    by_cases hevicts : w.engine.isLost c.2 = true ∧ w.engine.directory.isRemote c.1 = true
    · have hremoves : ∀ x, Stride.evicts x ⟨w, .resolve p, uuid,
          { w with
            engine := (w.engine.evicted? c.1 c.2).getD w.engine
            passes := w.passes.set p ⟨none, rest⟩ }⟩ = true ↔ x = c.1 := by
        intro x
        by_cases hx : x = c.1
        · simp [evicts, loses, knew, knows, Engine.evicted?, hevicts, hx]
        · simp [evicts, loses, knew, knows, Engine.evicted?, hevicts, hx]
      have hfault : Stride.fault? ⟨w, .resolve p, uuid,
          { w with
            engine := (w.engine.evicted? c.1 c.2).getD w.engine
            passes := w.passes.set p ⟨none, rest⟩ }⟩ = some (.fault uuid w.engine.identity c.1) := by
        simp [fault?, hp, Engine.fault?, Engine.evicted?, hevicts]
      simp only [hfault, hremoves, exists_eq_left, Option.some.injEq]
      exact eq_comm
    · simp [fault?, evicts, loses, knew, knows, hp, Engine.fault?, Engine.evicted?, hevicts]
  | _ => simp [fault?, evicts]

theorem Stride.reports_iff (h : st.before.move? st.move = some st.after) :
    (∃ m, st.fault? = some m ∧ m.reports x = true) ↔ st.evicts x = true := by
  simp only [fault?_iff h]
  constructor
  · rintro ⟨m, ⟨y, hy, rfl⟩, hm⟩
    have hyx : y = x := by simpa [Message.reports, Message.fault, Message.plain, Message.withPayload] using hm
    exact hyx ▸ hy
  · intro hx
    exact ⟨_, ⟨x, hx, rfl⟩, by simp [Message.reports, Message.fault, Message.plain, Message.withPayload]⟩

/-- There are as many faults about an identity as times that a pass has removed it. -/
theorem faultsAbout_eq {l : List Stride} (h : ∀ st ∈ l, st.before.move? st.move = some st.after) :
    faultsAbout x l = l.countP (Stride.evicts x) := by
  induction l with
  | nil => rfl
  | cons st l ih =>
    have hiff := Stride.reports_iff (x := x) (h st (by simp))
    have hrest := ih fun st hst => h st (by simp [hst])
    unfold faultsAbout at hrest ⊢
    rw [List.countP_cons, ← hrest]
    cases hfault : st.fault? with
    | none =>
      have hevicts : st.evicts x = false := by simpa [hfault] using hiff
      simp [hfault, hevicts]
    | some m =>
      have hevicts : m.reports x = st.evicts x := by
        rw [Bool.eq_iff_iff, ← hiff]
        simp [hfault]
      simp [hfault, List.countP_cons, hevicts]

/-! ## Stretches in which nobody comes to be known -/

/-- An identity that is not known stays so until a contact of it comes to be. -/
theorem knew_of_mem_strides (hw : w.engine.directory.isRemote x = false)
    (hnew : ∀ st ∈ w.strides moves, st.creates x = false) (h : st ∈ w.strides moves) :
    st.knew x = false := by
  induction moves generalizing w with
  | nil => simp [strides] at h
  | cons mv moves ih =>
    simp only [strides] at h hnew
    split at h
    · next v hv =>
      rw [hv] at hnew
      have hnow : v.engine.directory.isRemote x = false := by
        have hfirst := hnew _ List.mem_cons_self
        simpa [Stride.creates, Stride.knew, Stride.knows, hw] using hfirst
      rcases List.mem_cons.1 h with rfl | h
      · exact hw
      · exact ih hnow (fun st hst => hnew st (List.mem_cons_of_mem _ hst)) h
    · simp at h

/-- An identity ceases to be known once, and by one cause, until a contact of it comes to be. -/
theorem countP_loses_le_one (hnew : ∀ st ∈ w.strides moves, st.creates x = false) :
    (w.strides moves).countP (Stride.loses x) ≤ 1 := by
  induction moves generalizing w with
  | nil => simp [strides]
  | cons mv moves ih =>
    simp only [strides] at hnew ⊢
    split
    · next v hv =>
      rw [hv] at hnew
      have hrest : ∀ st ∈ v.strides moves, st.creates x = false := fun st hst =>
        hnew st (List.mem_cons_of_mem _ hst)
      rw [List.countP_cons]
      by_cases hloses : Stride.loses x ⟨w, mv.1, mv.2, v⟩ = true
      · have hgone : v.engine.directory.isRemote x = false := by
          simp only [Stride.loses, Bool.and_eq_true, Bool.not_eq_true'] at hloses
          exact hloses.2
        have hnone : (v.strides moves).countP (Stride.loses x) = 0 := by
          rw [List.countP_eq_zero]
          intro st hst
          simp [Stride.loses, knew_of_mem_strides hgone hrest hst]
        simp [hloses, hnone]
      · simpa [hloses] using ih hrest
    · simp

theorem Stride.loses_of_evicts (h : st.evicts x = true) : st.loses x = true := by
  unfold evicts at h
  split at h
  · exact h
  · contradiction

/-- What departs is not known afterwards. -/
theorem Stride.Departs.loses (h : st.Departs x) (hmove : st.before.move? st.move = some st.after) :
    st.loses x = true := by
  obtain ⟨m, hm, rfl, hadmits, hreaction, hknew⟩ := h
  rw [hm] at hmove
  have hafter : st.before.receive m = st.after := Option.some.inj hmove
  have hknows : st.knows m.sender = false := by
    simp [Stride.knows, ← hafter, receive, Engine.lingers, Engine.informed, hadmits, hreaction,
      Engine.changed, Engine.touched]
  simp [Stride.loses, hknew, hknows]

/-- What departs is left to no pass to remove. -/
theorem countP_evicts_of_departs (hnew : ∀ st ∈ w.strides moves, st.creates x = false)
    (hst : st ∈ w.strides moves) (hdeparts : st.Departs x) :
    (w.strides moves).countP (Stride.evicts x) = 0 := by
  rw [List.countP_eq_zero]
  intro other hother hevicts
  have honce := countP_loses_le_one hnew
  rw [List.countP_eq_length_filter, Nat.le_one_iff_eq_zero_or_eq_one, List.length_eq_zero_iff,
    List.length_eq_one_iff] at honce
  have hfirst : st ∈ (w.strides moves).filter (Stride.loses x) :=
    List.mem_filter.2 ⟨hst, hdeparts.loses (move?_of_mem_strides hst)⟩
  have hsecond : other ∈ (w.strides moves).filter (Stride.loses x) :=
    List.mem_filter.2 ⟨hother, Stride.loses_of_evicts hevicts⟩
  obtain hnone | ⟨only, honly⟩ := honce
  · simp [hnone] at hfirst
  · -- The two are one stride, but a call is no pass.
    simp only [honly, List.mem_singleton] at hfirst hsecond
    obtain ⟨m, hm, -⟩ := hdeparts
    simp [Stride.evicts, hsecond, ← hfirst, hm] at hevicts

/-! ## Pings -/

/-- How many pings a pass may still send to an identity. -/
def pingsLeft (w : Moment) (p : Nat) (x : Identity) : Nat :=
  match w.passes[p]? with
  | some q => (q.rest.map Prod.fst).count x
  | none => 1

theorem pingsLeft_of_passes (h : v.passes = w.passes) : v.pingsLeft p x = w.pingsLeft p x := by
  rw [pingsLeft, h, pingsLeft]

theorem pingsLeft_of_length_le (h : w.passes.length ≤ p) : w.pingsLeft p x = 1 := by
  simp [pingsLeft, List.getElem?_eq_none h]

/-- A pass that comes on. -/
theorem pingsLeft_set {q q' : Pass} {r : Nat} (hr : w.passes[r]? = some q)
    (hv : v.passes = w.passes.set r q') :
    v.pingsLeft p x = if r = p then (q'.rest.map Prod.fst).count x else w.pingsLeft p x := by
  obtain ⟨hlt, -⟩ := List.getElem?_eq_some_iff.1 hr
  by_cases hrp : r = p
  · subst hrp
    simp [pingsLeft, hv, hlt]
  · simp [pingsLeft, hv, hrp]

/-- A pass that begins has each identity before it at most once. -/
theorem pingsLeft_beginPass {order : List (Identity × Slot)}
    (horder : order.Perm w.engine.directory.remotes.toList)
    (hv : v.passes = w.passes ++ [⟨none, order⟩]) : v.pingsLeft p x ≤ w.pingsLeft p x := by
  have honce : (order.map Prod.fst).count x ≤ 1 :=
    List.nodup_iff_count_le_one.1
      ((horder.map Prod.fst).nodup_iff.2 w.engine.directory.remotes.nodup) x
  rcases Nat.lt_trichotomy p w.passes.length with hlt | rfl | hgt
  · simp [pingsLeft, hv, List.getElem?_append_left hlt]
  · simpa [pingsLeft, hv] using honce
  · have hlen : v.passes.length ≤ p := by simp [hv]; omega
    simp [pingsLeft_of_length_le hlen, pingsLeft_of_length_le (Nat.le_of_lt hgt)]

theorem pingsTo_of_none (h : st.ping? = none) : pingsTo p x [st] = 0 := by
  simp [pingsTo, h]

/-- Moves that leave all passes alone. -/
theorem passes_move (h : w.move? mv = some v) (hbegin : ∀ order, mv ≠ .beginPass order)
    (hlook : ∀ q, mv ≠ .look q) (hresolve : ∀ q, mv ≠ .resolve q) : v.passes = w.passes := by
  cases mv with
  | beginPass order => exact absurd rfl (hbegin order)
  | look q => exact absurd rfl (hlook q)
  | resolve q => exact absurd rfl (hresolve q)
  | receive m =>
    cases h
    unfold receive
    split <;> rfl
  | conclude c =>
    simp only [move?] at h
    split at h
    · cases h; rfl
    · contradiction
  | register i a =>
    simp only [move?, Option.map_eq_some_iff] at h
    obtain ⟨d, -, rfl⟩ := h
    rfl
  | unregister | withdraw | setClock | forget | tend => cases h; rfl

/-- A pass looks at a contact, which it will not look at again. -/
theorem pingsLeft_look {q : Nat} (h : w.move? (.look q) = some v) :
    pingsTo p x [⟨w, .look q, uuid, v⟩] + v.pingsLeft p x ≤ w.pingsLeft p x := by
  simp only [move?] at h
  split at h
  · next c rest hq =>
    have hv : v.passes = w.passes.set q ⟨if w.engine.isQuiet c.2 then some c else none, rest⟩ := by
      rw [← Option.some.inj h]
    rw [pingsLeft_set hq hv]
    by_cases hqp : q = p
    · subst hqp
      by_cases hquiet : w.engine.isQuiet c.2 = true
      · have hping : Stride.ping? ⟨w, .look q, uuid, v⟩ =
            some (q, .ping uuid w.engine.identity c.1) := by
          simp [Stride.ping?, Engine.ping?, hq, hquiet]
        by_cases hcx : c.1 = x
        · simp [pingsTo, hping, pingsLeft, hq, Message.ping, Message.plain, hcx]
          omega
        · simp [pingsTo, hping, pingsLeft, hq, Message.ping, Message.plain, hcx]
      · have hping : Stride.ping? ⟨w, .look q, uuid, v⟩ = none := by
          simp [Stride.ping?, Engine.ping?, hq, hquiet]
        rw [pingsTo_of_none hping]
        by_cases hcx : c.1 = x <;> simp [pingsLeft, hq, hcx]
    · by_cases hquiet : w.engine.isQuiet c.2 = true <;>
        simp [pingsTo, Stride.ping?, Engine.ping?, hq, hqp, hquiet]
  · contradiction

/-- A ping is one of those that were left to the pass that sends it. -/
theorem pingsLeft_stride (h : w.move? mv = some v) :
    pingsTo p x [⟨w, mv, uuid, v⟩] + v.pingsLeft p x ≤ w.pingsLeft p x := by
  cases mv with
  | look q => exact pingsLeft_look h
  | resolve q =>
    obtain ⟨c, rest, hq, rfl⟩ := move?_resolve h
    rw [pingsTo_of_none rfl, pingsLeft_set hq rfl]
    by_cases hqp : q = p
    · subst hqp
      simp [pingsLeft, hq]
    · simp [hqp]
  | beginPass order =>
    simp only [move?] at h
    split at h
    · next horder =>
      cases h
      rw [pingsTo_of_none rfl, Nat.zero_add]
      exact pingsLeft_beginPass horder rfl
    · contradiction
  | _ =>
    have hpasses := passes_move h (by simp) (by simp) (by simp)
    exact Nat.le_of_eq (by rw [pingsTo_of_none rfl, pingsLeft_of_passes hpasses, Nat.zero_add])

theorem pingsTo_le : pingsTo p x (w.strides moves) ≤ w.pingsLeft p x := by
  induction moves generalizing w with
  | nil => simp [strides, pingsTo]
  | cons mv moves ih =>
    simp only [strides]
    split
    · next v hv =>
      have hfirst : pingsTo p x [⟨w, mv.1, mv.2, v⟩] + v.pingsLeft p x ≤ w.pingsLeft p x :=
        pingsLeft_stride hv
      have hrest := ih (w := v)
      have hsum : pingsTo p x (⟨w, mv.1, mv.2, v⟩ :: v.strides moves) =
          pingsTo p x [⟨w, mv.1, mv.2, v⟩] + pingsTo p x (v.strides moves) := by
        simp only [pingsTo, ← List.countP_append, ← List.filterMap_append, List.singleton_append]
      omega
    · simp [pingsTo]

/-! ## What a run comes to -/

/-- **One fault for one removal.** However many passes are under way, and whatever calls, joins and
leaves come in between: the faults about an identity are as many as the times that a pass has removed
it. From one time that a contact of it comes to be to the next there is at most one, and none if it
has left by itself. Every fault is one of the cloud to itself and names whom a pass has just removed.
A pass pings nobody twice. -/
theorem one_fault_for_one_removal (w : Moment) (moves : List (Move × Uuid)) :
    (∀ x, faultsAbout x (w.strides moves) = (w.strides moves).countP (Stride.evicts x)) ∧
    (∀ x, (∀ st ∈ w.strides moves, st.creates x = false) →
      faultsAbout x (w.strides moves) ≤ 1 ∧
      ((∃ st ∈ w.strides moves, st.Departs x) → faultsAbout x (w.strides moves) = 0)) ∧
    (∀ st ∈ w.strides moves, ∀ m, st.fault? = some m → ∃ x, st.evicts x = true ∧
      m.kind = .fault ∧ m.sender = w.engine.identity ∧ m.recipient = w.engine.identity ∧
      m.payload = .fault x) ∧
    ∀ p x, w.passes.length ≤ p → pingsTo p x (w.strides moves) ≤ 1 := by
  have hmoves : ∀ st ∈ w.strides moves, st.before.move? st.move = some st.after :=
    fun st hst => move?_of_mem_strides hst
  refine ⟨fun x => faultsAbout_eq hmoves, fun x hnew => ?_, fun st hst m hm => ?_, fun p x hp => ?_⟩
  · rw [faultsAbout_eq hmoves]
    refine ⟨Nat.le_trans ?_ (countP_loses_le_one hnew), ?_⟩
    · exact List.countP_mono_left fun st _ => Stride.loses_of_evicts
    · rintro ⟨st, hst, hdeparts⟩
      exact countP_evicts_of_departs hnew hst hdeparts
  · obtain ⟨x, hx, rfl⟩ := (Stride.fault?_iff (hmoves st hst)).1 hm
    exact ⟨x, hx, rfl, identity_of_mem_strides hst, identity_of_mem_strides hst, rfl⟩
  · rw [← pingsLeft_of_length_le (x := x) hp]
    exact pingsTo_le

/-- An engine that gives its contacts up after thirty milliseconds, when it has heard of one and a
hundred milliseconds have gone by. -/
def forsaken : Moment :=
  let e : Engine := { (default : Engine) with settings := ⟨.ofMillis 10, 3, .ofMillis 0, .inline⟩ }
  let w : Moment := ⟨{ e with clock := 100 }, [], []⟩
  w.withDirectory (Directory.empty.announce (.agent default) .empty 0)

/-- Two passes look at a contact one after the other, and then again. -/
def race : List (Move × Uuid) :=
  [.beginPass [(.agent default, 0)], .beginPass [(.agent default, 0)], .look 0, .look 1, .resolve 0,
    .resolve 1].map (·, default)

theorem one_fault_for_one_removal_race :
    (forsaken.strides race).length = 6 ∧ faultsAbout (.agent default) (forsaken.strides race) = 1 ∧
    pingsTo 0 (.agent default) (forsaken.strides race) = 1 ∧
    pingsTo 1 (.agent default) (forsaken.strides race) = 1 := by
  have hrace := one_fault_for_one_removal forsaken race
  refine ⟨by decide, ?_, by decide, by decide⟩
  have hone : faultsAbout (.agent default) (forsaken.strides race) ≤ 1 :=
    (hrace.2.1 _ (by decide)).1
  have hremoved : (forsaken.strides race).countP (Stride.evicts (.agent default)) ≠ 0 := by decide
  rw [← hrace.1] at hremoved
  omega

end Moment

/-! ## Passes of a fabric -/

namespace Fabric

variable {f : Fabric} {e : EngineId} {contact : Identity} {s : Slot}

/-- A pass of a fabric sends the ping that it is said to send, and none to a contact that is not
quiet. -/
theorem probeContact_eq_send : probeContact e f (contact, s) =
    match (f.engine e).ping? f.fresh.1 contact s with
    | some m => (f.fresh.2.send e m).1.evictFrom e contact s
    | none => f := by
  by_cases hquiet : (f.engine e).isQuiet s = true
  · simp only [probeContact, Engine.ping?, hquiet, if_true]
    rfl
  · simp [probeContact, Engine.ping?, hquiet]

/-- A pass of a fabric hands the fault to the listeners that it is said to hand to them, once the
identity has been removed. If there is none, it leaves the fabric as it is. -/
theorem evictFrom_eq_dispatch : f.evictFrom e contact s =
    match (f.engine e).fault? f.fresh.1 contact s with
    | some m =>
      (f.setDirectory e ((f.engine e).directory.removeRemote contact)).fresh.2.dispatch e m
    | none => f := by
  by_cases hlost : ((f.engine e).isLost s && (f.engine e).directory.isRemote contact) = true
  · simp only [evictFrom, Engine.fault?, Engine.evicted?, hlost, if_true, Option.map_some]
    rfl
  · simp [evictFrom, Engine.fault?, Engine.evicted?, hlost]

end Fabric

end Overlay
