import Overlay.Proofs.Confirmation.Board

/-!
# Boards that are even

Who waits for a confirmation and is let go leaves the session behind. What comes in before that may
confirm the session once more, and what comes in after it may not, but the session counts no longer.
So boards that differ in no more than this are even (`Board.Even`): they stay even whatever is done to
both, and the same are released on both.
-/

namespace Overlay

namespace Board

variable {ω : Type} {b b' b'' : Board ω} {s t : SessionId} {w : ω} {criterion : Criterion}
  {m n : Message} {i : Identity}

/-- Two boards differ at most in what is left behind on sessions that count no longer. -/
structure Even (b b' : Board ω) : Prop extends Alike b b' where
  waiters : ∀ s, (b'.session s).waiters = (b.session s).waiters
  confirmed : ∀ {i s}, b.current.get? i = some s →
    (b'.session s).confirmed = (b.session s).confirmed

namespace Even

theorem refl (b : Board ω) : b.Even b where
  toAlike := .refl b
  waiters := fun _ => rfl
  confirmed := fun _ => rfl

theorem trans (h : b.Even b') (h' : b'.Even b'') : b.Even b'' where
  toAlike := h.toAlike.trans h'.toAlike
  waiters := fun s => (h'.waiters s).trans (h.waiters s)
  confirmed := fun hs => (h'.confirmed (h.current ▸ hs)).trans (h.confirmed hs)

/-- The same session changes in the same way on both boards. -/
theorem set (h : b.Even b') {c c' : Session ω} (hagent : c'.agent = c.agent)
    (hwaiters : c'.waiters = c.waiters)
    (hconfirmed : ∀ i, b.current.get? i = some s → c'.confirmed = c.confirmed) :
    Even { b with sessions := b.sessions.set s c } { b' with sessions := b'.sessions.set s c' } where
  current := h.current
  length := by simpa using h.length
  agent := by
    intro t
    rw [session_set, session_set, h.length]
    split
    · exact hagent
    · exact h.agent t
  waiters := by
    intro t
    rw [session_set, session_set, h.length]
    split
    · exact hwaiters
    · exact h.waiters t
  confirmed := by
    intro i t ht
    rw [session_set, session_set, h.length]
    split
    · next hts => exact hconfirmed i (hts.1 ▸ ht)
    · exact h.confirmed ht

theorem confirm (h : b.Even b') (s : SessionId) :
    (b.confirm s).1.Even (b'.confirm s).1 ∧ (b'.confirm s).2 = (b.confirm s).2 := by
  have hagent : (b'.session s).confirm.1.agent = (b.session s).confirm.1.agent := by
    simp [h.agent]
  have hwaiters : (b'.session s).confirm.1.waiters = (b.session s).confirm.1.waiters := by
    simp [h.waiters]
  refine ⟨h.set hagent hwaiters fun i hi => ?_, ?_⟩
  case refine_1 =>
    change (b'.session s).confirm.1.confirmed = (b.session s).confirm.1.confirmed
    rw [Session.confirmed_confirm, Session.confirmed_confirm, h.waiters, h.confirmed hi]
  case refine_2 =>
    change (b'.session s).confirm.2 = (b.session s).confirm.2
    rw [Session.released_confirm, Session.released_confirm, h.waiters]

theorem confirmAll (h : b.Even b') (ss : List SessionId) :
    (b.confirmAll ss).1.Even (b'.confirmAll ss).1 ∧
      (b'.confirmAll ss).2 = (b.confirmAll ss).2 := by
  induction ss generalizing b b' with
  | nil => exact ⟨h, rfl⟩
  | cons s ss ih =>
    obtain ⟨hnow, hreleased⟩ := h.confirm s
    obtain ⟨hlater, hmore⟩ := ih hnow
    exact ⟨hlater, by simp [Board.confirmAll, hreleased, hmore]⟩

/-- Messages that confirm the same come in. -/
theorem receive (h : b.Even b') (hmn : ∀ i, criterion n i = criterion m i) :
    (b.receive criterion m).1.Even (b'.receive criterion n).1 ∧
      (b'.receive criterion n).2 = (b.receive criterion m).2 := by
  have hsame : b'.confirmedBy criterion n = b.confirmedBy criterion m := by
    simp [confirmedBy, h.current, hmn]
  unfold Board.receive
  rw [hsame]
  exact h.confirmAll _

theorem start (h : b.Even b') (i : Identity) :
    (b.start i).1.Even (b'.start i).1 ∧ (b'.start i).2 = (b.start i).2 := by
  refine ⟨?_, h.length⟩
  constructor
  case toAlike =>
    refine ⟨by simp [Board.start, h.current, h.length], by simp [Board.start, h.length], fun t => ?_⟩
    rw [session_start, session_start, h.length]
    split
    · rfl
    · exact h.agent t
  case waiters =>
    intro t
    rw [session_start, session_start, h.length]
    split
    · rfl
    · exact h.waiters t
  case confirmed =>
    intro j t ht
    rw [session_start, session_start, h.length]
    split
    · rfl
    · next hne =>
      simp only [Board.start, Register.get?_enter] at ht
      split at ht
      · exact absurd (Option.some.inj ht).symm hne
      · exact h.confirmed ht

theorem wait (h : b.Even b') (hs : ∃ i, b.current.get? i = some s) (w : ω) :
    (b.wait s w).1.Even (b'.wait s w).1 ∧ (b'.wait s w).2 = (b.wait s w).2 := by
  obtain ⟨i, hi⟩ := hs
  rw [wait_eq, wait_eq]
  refine ⟨h.set (by simp [h.agent]) ?_ fun _ _ => by simp, h.confirmed hi⟩
  simp [Session.waiters_waited, h.confirmed hi, h.waiters]

theorem giveUp [BEq ω] (h : b.Even b') (s : SessionId) (w : ω) :
    (b.giveUp s w).Even (b'.giveUp s w) :=
  h.set (h.agent s) (by simp [h.waiters]) fun _ hi => h.confirmed hi

theorem release (h : b.Even b') (s : SessionId) : (b.release s).Even (b'.release s) := by
  constructor
  case toAlike => exact ⟨by simp [Board.release, h.current, h.agent], h.length, h.agent⟩
  case waiters => exact h.waiters
  case confirmed =>
    intro i t ht
    refine h.confirmed (i := i) ?_
    simp only [Board.release, Register.eraseIf] at ht
    split at ht
    · simp only [Register.get?_erase] at ht
      split at ht
      · cases ht
      · exact ht
    · exact ht

end Even

/-- Who gives up a wait has left nothing behind when the session is released. -/
theorem Owned.release_wait [BEq ω] [LawfulBEq ω] (h : b.Owned) (hs : (b.session s).waiters = []) :
    Even (b.release s) (((b.wait s w).1.giveUp s w).release s) := by
  have halike : b.Alike ((b.wait s w).1.giveUp s w) := alike_wait.trans alike_giveUp
  have hother : ∀ {t}, t ≠ s → ((b.wait s w).1.giveUp s w).session t = b.session t := by
    intro t hts
    rw [Board.giveUp, session_set, if_neg fun h => hts h.1, wait_eq, session_set,
      if_neg fun h => hts h.1]
  constructor
  case toAlike =>
    exact ⟨by rw [Board.release, Board.release, halike.current, halike.agent], halike.length,
      halike.agent⟩
  case waiters =>
    intro t
    rw [session_release, session_release]
    by_cases hts : t = s
    · subst hts
      rw [hs, Board.giveUp, session_set, wait_eq]
      by_cases hlt : t < b.sessions.length
      · simp only [session_set, hlt, and_self, if_true, List.length_set, Session.waiters_waited, hs]
        split <;> simp
      · simp [hlt, session_set, hs]
    · rw [hother hts]
  case confirmed =>
    intro i t ht
    have hts : t ≠ s := by
      rintro rfl
      rw [h.get?_release] at ht
      split at ht
      · cases ht
      · next hno => exact hno ht
    rw [session_release, session_release, hother hts]

/-- What a message confirms is the same after a release, but for the session released. -/
theorem Owned.confirmedBy_release (h : b.Owned) :
    (b.release s).confirmedBy criterion m = (b.confirmedBy criterion m).filter (· ≠ s) := by
  have hentries : (b.release s).current.toList = b.current.toList.filter fun c => c.2 ≠ s := by
    have hvalue : ∀ c ∈ b.current.toList, b.current.get? (b.session s).agent = some s →
        (c.1 ≠ (b.session s).agent ↔ c.2 ≠ s) := by
      intro c hc hs
      have hget := Register.mem_toList.1 hc
      refine not_congr ⟨fun hi => ?_, fun hi => ?_⟩
      · rw [hi, hs] at hget
        exact (Option.some.inj hget).symm
      · rw [← hi]
        exact (h.owned hget).2.symm
    simp only [Board.release, Register.eraseIf]
    split
    · next hs =>
      exact List.filter_congr fun c hc => decide_eq_decide.2 (hvalue c hc (beq_iff_eq.1 hs))
    · next hs =>
      refine (List.filter_eq_self.2 fun c hc => ?_).symm
      have hget := Register.mem_toList.1 hc
      refine decide_eq_true fun hcs => hs (beq_iff_eq.2 ?_)
      subst hcs
      rw [(h.owned hget).2]
      exact hget
  simp only [confirmedBy, hentries, List.filter_filter, List.filter_map]
  congr 1
  exact List.filter_congr fun c _ => by simp [Bool.and_comm]

/-- To release a session on which nobody waits, and to receive a message, are in no order. -/
theorem Owned.receive_release (h : b.Owned) (hs : (b.session s).waiters = []) :
    Even ((b.receive criterion m).1.release s) ((b.release s).receive criterion m).1 ∧
      ((b.release s).receive criterion m).2 = (b.receive criterion m).2 := by
  have hreceived : b.Alike (b.receive criterion m).1 := alike_receive
  have hreleased : (b.release s).Alike ((b.release s).receive criterion m).1 := alike_receive
  -- Only the session itself may be confirmed before the release and not after it.
  have hmem : ∀ t, t ∈ (b.release s).confirmedBy criterion m ↔
      t ∈ b.confirmedBy criterion m ∧ t ≠ s := by
    intro t
    rw [h.confirmedBy_release]
    simp
  refine ⟨?_, ?_⟩
  case refine_1 =>
    constructor
    case toAlike =>
      refine ⟨?_, hreleased.length.trans hreceived.length.symm, fun t => ?_⟩
      · rw [hreleased.current, Board.release, Board.release, hreceived.current, hreceived.agent]
      · rw [hreleased.agent, session_release, session_release, hreceived.agent]
    case waiters =>
      intro t
      rw [h.release.session_receive, session_release, session_release, h.session_receive]
      simp only [hmem]
      by_cases hts : t = s
      · subst hts
        by_cases ht : t ∈ b.confirmedBy criterion m <;> simp [ht, hs]
      · simp [hts]
    case confirmed =>
      intro i t ht
      have hne : t ≠ s := by
        rintro rfl
        rw [(h.alike hreceived).get?_release] at ht
        split at ht
        · cases ht
        · next hno => exact hno ht
      rw [h.release.session_receive, session_release, session_release, h.session_receive]
      simp only [hmem]
      simp [hne]
  case refine_2 =>
    rw [h.release.released_receive, h.released_receive, h.confirmedBy_release]
    induction b.confirmedBy criterion m with
    | nil => rfl
    | cons t ss ih =>
      by_cases hts : t = s
      · subst hts
        simpa [hs] using ih
      · rw [List.filter_cons_of_pos (by simpa using hts), List.filterMap_cons,
          List.filterMap_cons, ih, session_release]

end Board

end Overlay
