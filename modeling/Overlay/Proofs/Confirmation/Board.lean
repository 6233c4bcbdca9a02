import Mathlib.Data.List.Nodup
import Overlay.Confirmation.Board
import Overlay.Proofs.History

/-!
# What changes sessions

A message confirms sessions, of each agent the one that counts, and has no other effect on a board
(`Board.Later`). Which session counts depends on nothing but the sessions that were opened and
released, in their order: `Board.Follows` says that a board is what it must be after such changes.
-/

namespace Overlay

namespace Session

variable {ω : Type} {c : Session ω} {w : ω}

@[simp] theorem agent_confirm : c.confirm.1.agent = c.agent := by
  unfold confirm
  split <;> rfl

/-- A confirmation stays behind only if nobody waits. -/
@[simp] theorem confirmed_confirm :
    c.confirm.1.confirmed = (c.confirmed || c.waiters.isEmpty) := by
  unfold confirm
  split <;> simp [*]

@[simp] theorem waiters_confirm : c.confirm.1.waiters = c.waiters.tail := by
  unfold confirm
  split <;> simp [*]

/-- A confirmation releases the longest waiting. -/
@[simp] theorem released_confirm : c.confirm.2 = c.waiters.head? := by
  unfold confirm
  split <;> simp [*]

/-- A session that is confirmed already is used up, and else somebody waits on it. -/
def waited (c : Session ω) (w : ω) : Session ω :=
  if c.confirmed then { c with confirmed := false } else { c with waiters := c.waiters ++ [w] }

@[simp] theorem agent_waited : (c.waited w).agent = c.agent := by
  unfold waited
  split <;> rfl

@[simp] theorem confirmed_waited : (c.waited w).confirmed = false := by
  unfold waited
  split <;> simp_all

theorem waiters_waited :
    (c.waited w).waiters = if c.confirmed then c.waiters else c.waiters ++ [w] := by
  unfold waited
  split <;> rfl

end Session

namespace Board

variable {ω : Type} {b b' b'' : Board ω} {s t : SessionId}

/-- What becomes of a session is nothing to any other. -/
theorem session_set (c : Session ω) :
    ({ b with sessions := b.sessions.set s c } : Board ω).session t =
      if t = s ∧ s < b.sessions.length then c else b.session t := by
  simp only [session, List.getD]
  by_cases hs : s < b.sessions.length
  · by_cases hts : t = s
    · simp [hts, hs]
    · simp [hts, Ne.symm hts]
  · simp [hs, List.set_eq_of_length_le (Nat.le_of_not_lt hs)]

/-- The same sessions for the same agents, of which the same ones count. -/
structure Alike (b b' : Board ω) : Prop where
  current : b'.current = b.current
  length : b'.sessions.length = b.sessions.length
  agent : ∀ s, (b'.session s).agent = (b.session s).agent

theorem Alike.refl (b : Board ω) : b.Alike b := ⟨rfl, rfl, fun _ => rfl⟩

theorem Alike.trans (h : b.Alike b') (h' : b'.Alike b'') : b.Alike b'' where
  current := h'.current.trans h.current
  length := h'.length.trans h.length
  agent := fun s => (h'.agent s).trans (h.agent s)

/-! ## Later boards -/

/-- A board some messages later: the same sessions, of which none has lost a confirmation. -/
structure Later (b b' : Board ω) : Prop where
  current : b'.current = b.current
  length : b'.sessions.length = b.sessions.length
  agent : ∀ s, (b'.session s).agent = (b.session s).agent
  confirmed : ∀ {s}, (b.session s).confirmed = true → (b'.session s).confirmed = true
  waiters : ∀ {s}, (b.session s).waiters = [] → (b'.session s).waiters = []

theorem Later.refl (b : Board ω) : b.Later b := ⟨rfl, rfl, fun _ => rfl, id, id⟩

theorem Later.trans (h : b.Later b') (h' : b'.Later b'') : b.Later b'' where
  current := h'.current.trans h.current
  length := h'.length.trans h.length
  agent := fun s => (h'.agent s).trans (h.agent s)
  confirmed := fun hs => h'.confirmed (h.confirmed hs)
  waiters := fun hs => h'.waiters (h.waiters hs)

theorem Later.alike (h : b.Later b') : b.Alike b' := ⟨h.current, h.length, h.agent⟩

/-- To confirm a session changes that session and no other. -/
theorem session_confirm :
    (b.confirm s).1.session t =
      if t = s ∧ s < b.sessions.length then (b.session s).confirm.1 else b.session t :=
  session_set _

theorem later_confirm : b.Later (b.confirm s).1 := by
  constructor
  case current => rfl
  case length => simp [confirm]
  case agent =>
    intro t
    rw [session_confirm]
    by_cases h : t = s ∧ s < b.sessions.length <;> simp [h]
  case confirmed =>
    intro t ht
    rw [session_confirm]
    split
    · next h => simp [← h.1, ht]
    · exact ht
  case waiters =>
    intro t ht
    rw [session_confirm]
    split
    · next h => simp [← h.1, ht]
    · exact ht

theorem later_confirmAll (ss : List SessionId) : b.Later (b.confirmAll ss).1 := by
  induction ss generalizing b with
  | nil => exact .refl b
  | cons s ss ih => exact later_confirm.trans ih

theorem later_receive (criterion : Criterion) (m : Message) : b.Later (b.receive criterion m).1 :=
  later_confirmAll _

/-- A session on which nobody waits is confirmed by what confirms it. -/
theorem confirmed_confirmAll {ss : List SessionId} (h : s ∈ ss) (hs : s < b.sessions.length)
    (hw : (b.session s).waiters = []) : ((b.confirmAll ss).1.session s).confirmed = true := by
  induction ss generalizing b with
  | nil => contradiction
  | cons t ss ih =>
    change (((b.confirm t).1.confirmAll ss).1.session s).confirmed = true
    rcases List.mem_cons.1 h with rfl | hmem
    · have hnow : ((b.confirm s).1.session s).confirmed = true := by
        simp [session_confirm, hs, hw]
      exact (later_confirmAll ss).confirmed hnow
    · have hlater : b.Later (b.confirm t).1 := later_confirm
      exact ih hmem (hlater.length ▸ hs) (hlater.waiters hw)

/-- A message that meets the criterion for an agent confirms its session, if nobody waits on that. -/
theorem confirmed_receive {criterion : Criterion} {m : Message} {i : Identity}
    (hcurrent : b.current.get? i = some s) (hm : criterion m i = true) (hs : s < b.sessions.length)
    (hw : (b.session s).waiters = []) :
    ((b.receive criterion m).1.session s).confirmed = true := by
  apply confirmed_confirmAll _ hs hw
  exact List.mem_map.2 ⟨(i, s), List.mem_filter.2 ⟨Register.mem_toList.2 hcurrent, hm⟩, rfl⟩

/-! ## Sessions -/

variable {criterion : Criterion} {m : Message} {i j : Identity} {w : ω} {ss : List SessionId}

theorem session_start : (b.start i).1.session t =
    if t = b.sessions.length then ⟨i, false, []⟩ else b.session t := by
  simp only [start, session, List.getD]
  rcases Nat.lt_trichotomy t b.sessions.length with ht | ht | ht
  · simp [Nat.ne_of_lt ht, List.getElem?_append_left ht]
  · simp [ht]
  · have hbeyond : (b.sessions ++ [⟨i, false, []⟩])[t]? = none :=
      List.getElem?_eq_none (by rw [List.length_append]; exact ht)
    simp [Nat.ne_of_gt ht, Nat.le_of_lt ht, hbeyond]

/-- On a session that was never opened nobody waits. -/
theorem session_of_length_le (hs : b.sessions.length ≤ s) : b.session s = default := by
  simp [session, List.getD, hs]

@[simp] theorem session_release : (b.release s).session t = b.session t := rfl

theorem wait_eq : b.wait s w =
    ({ b with sessions := b.sessions.set s ((b.session s).waited w) },
      (b.session s).confirmed) := by
  cases h : (b.session s).confirmed <;> simp [wait, Session.waited, h]

theorem mem_confirmedBy :
    t ∈ b.confirmedBy criterion m ↔ ∃ i, b.current.get? i = some t ∧ criterion m i = true := by
  simp [confirmedBy, Register.mem_toList]

theorem alike_receive : b.Alike (b.receive criterion m).1 :=
  (later_receive criterion m).alike

theorem alike_wait : b.Alike (b.wait s w).1 := by
  refine ⟨by simp [wait_eq], by simp [wait_eq], fun t => ?_⟩
  rw [wait_eq, session_set]
  split <;> simp [*]

/-- Who does not wait cannot give up. -/
theorem giveUp_of_notMem [BEq ω] [LawfulBEq ω] (h : w ∉ (b.session s).waiters) :
    b.giveUp s w = b := by
  have hwaiters : (b.session s).waiters.filter (· != w) = (b.session s).waiters := by
    rw [List.filter_eq_self]
    intro x hx
    exact bne_iff_ne.2 fun hxw => h (hxw ▸ hx)
  have hsession : b.sessions.set s (b.session s) = b.sessions := by
    refine List.ext_getElem? fun t => ?_
    rw [List.getElem?_set]
    split
    · next hst =>
      subst hst
      split <;> simp_all [session]
    · rfl
  rw [giveUp, hwaiters, hsession]

theorem alike_giveUp [BEq ω] : b.Alike (b.giveUp s w) := by
  refine ⟨rfl, by simp [giveUp], fun t => ?_⟩
  rw [giveUp, session_set]
  split <;> simp [*]

/-- Sessions that are confirmed in turn, each once, are confirmed apart from one another. -/
theorem session_confirmAll (hss : ss.Nodup) (hlt : ∀ s ∈ ss, s < b.sessions.length) :
    (b.confirmAll ss).1.session t = if t ∈ ss then (b.session t).confirm.1 else b.session t := by
  induction ss generalizing b with
  | nil => simp [confirmAll]
  | cons s ss ih =>
    obtain ⟨hs, hss⟩ := List.nodup_cons.1 hss
    have hlength : (b.confirm s).1.sessions.length = b.sessions.length := later_confirm.length
    show ((b.confirm s).1.confirmAll ss).1.session t = _
    rw [ih hss fun u hu => hlength ▸ hlt u (by simp [hu]), session_confirm]
    by_cases hts : t = s
    · simp [hts, hs, hlt s]
    · simp [hts]

theorem released_confirmAll (hss : ss.Nodup) :
    (b.confirmAll ss).2 = ss.filterMap fun s => (b.session s).waiters.head? := by
  induction ss generalizing b with
  | nil => simp [confirmAll]
  | cons s ss ih =>
    obtain ⟨hs, hss⟩ := List.nodup_cons.1 hss
    have hrest : ∀ t ∈ ss, (b.confirm s).1.session t = b.session t := by
      intro t ht
      rw [session_confirm, if_neg]
      rintro ⟨rfl, -⟩
      exact hs ht
    show (b.session s).confirm.2.toList ++ ((b.confirm s).1.confirmAll ss).2 = _
    have hmap : (ss.filterMap fun t => ((b.confirm s).1.session t).waiters.head?) =
        ss.filterMap fun t => (b.session t).waiters.head? :=
      List.filterMap_congr fun t ht => by rw [hrest t ht]
    rw [ih hss, hmap, Session.released_confirm]
    cases h : (b.session s).waiters.head? <;> simp [h]

/-! ## Whose sessions they are -/

/-- A session counts for its own agent only. -/
structure Owned (b : Board ω) : Prop where
  owned : ∀ {i s}, b.current.get? i = some s → s < b.sessions.length ∧ (b.session s).agent = i

namespace Owned

theorem start (h : b.Owned) : (b.start i).1.Owned where
  owned := by
    intro j s hs
    have hlength : (b.start i).1.sessions.length = b.sessions.length + 1 := by simp [Board.start]
    by_cases hji : j = i
    · obtain rfl : b.sessions.length = s := by simpa [Board.start, hji] using hs
      exact ⟨by simp [hlength], by simp [session_start, hji]⟩
    · obtain ⟨hlt, hagent⟩ := h.owned (i := j) (s := s) (by simpa [Board.start, hji] using hs)
      rw [hlength, session_start, if_neg (Nat.ne_of_lt hlt)]
      exact ⟨Nat.lt_succ_of_lt hlt, hagent⟩

/-- Nothing counts any longer that was released, and all else does. -/
theorem get?_release (h : b.Owned) :
    (b.release s).current.get? j = if b.current.get? j = some s then none else b.current.get? j := by
  simp only [Board.release, Register.eraseIf]
  by_cases hj : b.current.get? j = some s
  · simp [(h.owned hj).2, hj]
  · by_cases hs : b.current.get? (b.session s).agent = some s
    · have hne : j ≠ (b.session s).agent := fun hne => hj (hne ▸ hs)
      simp [hj, hs, hne]
    · simp [hj, hs]

theorem release (h : b.Owned) : (b.release s).Owned where
  owned := by
    intro j t ht
    rw [h.get?_release] at ht
    split at ht
    · contradiction
    · exact h.owned ht

/-- What else may happen changes neither what counts nor whose a session is. -/
theorem alike (h : b.Owned) (hb : b.Alike b') : b'.Owned where
  owned := by
    intro i s hs
    rw [hb.length, hb.agent]
    exact h.owned (hb.current ▸ hs)

/-- A message confirms no session twice. -/
theorem nodup_confirmedBy (h : b.Owned) : (b.confirmedBy criterion m).Nodup := by
  have hpairs : b.current.toList.Nodup := b.current.nodup.of_map _
  refine List.Nodup.map_on ?_ (hpairs.filter _)
  rintro ⟨i, s⟩ hi ⟨j, t⟩ hj rfl
  have hi := (h.owned (Register.mem_toList.1 (List.mem_of_mem_filter hi))).2
  have hj := (h.owned (Register.mem_toList.1 (List.mem_of_mem_filter hj))).2
  rw [← hi, hj]

/-- A message confirms the sessions that count for those agents for whom it meets the criterion. -/
theorem session_receive (h : b.Owned) : (b.receive criterion m).1.session t =
    if t ∈ b.confirmedBy criterion m then (b.session t).confirm.1 else b.session t := by
  refine session_confirmAll h.nodup_confirmedBy fun s hs => ?_
  obtain ⟨i, hi, -⟩ := mem_confirmedBy.1 hs
  exact (h.owned hi).1

theorem released_receive (h : b.Owned) : (b.receive criterion m).2 =
    (b.confirmedBy criterion m).filterMap fun s => (b.session s).waiters.head? :=
  released_confirmAll h.nodup_confirmedBy

end Owned

/-! ## Which session counts -/

/-- What changes which session counts for an agent. -/
inductive Change where
  | start (agent : Identity)
  | release (session : SessionId)

def opened (changes : List Change) : Nat :=
  changes.countP fun
    | .start _ => true
    | .release _ => false

/-- A session was opened for an agent, and since then no other one was opened for that agent nor has
this one been released. -/
def Counts (changes : List Change) (s : SessionId) (i : Identity) : Prop :=
  Since (fun earlier x => x = .start i ∧ opened earlier = s)
    (fun x => x = .start i ∨ x = .release s) changes

variable {changes : List Change}

theorem counts_start :
    Counts (changes ++ [.start j]) s i ↔ if j = i then opened changes = s else Counts changes s i := by
  rw [Counts, since_concat, ← Counts]
  by_cases hji : j = i <;> simp [hji]

theorem counts_release :
    Counts (changes ++ [.release t]) s i ↔ t ≠ s ∧ Counts changes s i := by
  rw [Counts, since_concat, ← Counts]
  simp

/-- A board after changes of what counts, and whatever else happened to it. -/
structure Follows (b : Board ω) (changes : List Change) : Prop extends Owned b where
  length : b.sessions.length = opened changes
  current : ∀ {i s}, b.current.get? i = some s ↔ Counts changes s i

namespace Follows

theorem empty : (Board.empty : Board ω).Follows [] where
  owned := by simp [Board.empty]
  length := rfl
  current := by simp [Board.empty, Counts]

theorem start (h : b.Follows changes) :
    (b.start i).1.Follows (changes ++ [.start i]) where
  toOwned := h.toOwned.start
  length := by simp [Board.start, opened, h.length]
  current := by
    intro j s
    rw [counts_start, ← h.length, ← h.current]
    by_cases hji : j = i
    · simp [Board.start, hji]
    · simp [Board.start, hji, Ne.symm hji]

theorem release (h : b.Follows changes) : (b.release s).Follows (changes ++ [.release s]) where
  toOwned := h.toOwned.release
  length := by simpa [Board.release, opened] using h.length
  current := by
    intro j t
    rw [counts_release, h.get?_release, ← h.current]
    by_cases hj : b.current.get? j = some s
    · simp [hj]
    · simp only [hj, if_false]
      exact ⟨fun ht => ⟨fun hst => hj (hst ▸ ht), ht⟩, fun ht => ht.2⟩

/-- What else may happen changes neither what counts nor whose a session is. -/
theorem alike (h : b.Follows changes) (hb : b.Alike b') : b'.Follows changes where
  toOwned := h.toOwned.alike hb
  length := hb.length.trans h.length
  current := by
    intro i s
    rw [hb.current, h.current]

end Follows

end Board

end Overlay
