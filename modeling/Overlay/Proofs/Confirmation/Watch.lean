import Overlay.Proofs.Confirmation.Board
import Overlay.Timer

/-!
# Waits and their confirmations

A watch is a board together with the time and all waits that were ever begun on its sessions. What
happens to it happens in any order: sessions are opened and released, messages come in, waits begin,
and time passes. A wait whose time is over notices that before time goes on.

What becomes of a session and of a wait can be told from the history alone (`Watch.Told`): which
session counts for an agent, whether a confirmation is left for the next who waits, and which waits
were confirmed by what. `told_of_run` says that every run of a watch is as told.
-/

namespace Overlay

/-- A wait on a session that was begun at some time. -/
structure Stay where
  session : SessionId
  /-- When it ends if it is not confirmed. -/
  deadline : Nat
  /-- Whether it was confirmed, and when it ended; none as long as it goes on. -/
  ended : Option (Bool × Nat)

/-- A wait ends before its time is over or at that very time, and if it is not confirmed then. -/
def Stay.Timely (now : Nat) (y : Stay) : Prop :=
  match y.ended with
  | none => now ≤ y.deadline
  | some (true, t) => t ≤ y.deadline
  | some (false, t) => t = y.deadline

/-- A board and all waits on its sessions, which have the numbers of their places. -/
structure Watch where
  board : Board Nat
  now : Nat
  stays : List Stay

namespace Watch

inductive Event where
  | start (agent : Identity)
  | release (session : SessionId)
  | receive (message : Message)
  /-- A wait begins that has a number of nanoseconds to go. -/
  | wait (session : SessionId) (nanos : Nat)
  /-- A wait notices that its time is over. -/
  | expire (stay : Nat)
  /-- A millisecond passes. -/
  | tick

def fresh : Watch :=
  ⟨.empty, 0, []⟩

/-- The numbers of all waits of a sort. -/
def places (w : Watch) (p : Stay → Bool) : List Nat :=
  (List.range w.stays.length).filter fun k => w.stays[k]?.any p

/-- The waits that go on on a session, the longest waiting first. -/
def pending (w : Watch) (s : SessionId) : List Nat :=
  w.places fun x => x.session == s && x.ended.isNone

def due (w : Watch) : List Nat :=
  w.places fun x => x.ended.isNone && x.deadline ≤ w.now

/-- Waits end now, confirmed or not. -/
def conclude (w : Watch) (ks : List Nat) (confirmed : Bool) : List Stay :=
  w.stays.mapIdx fun k x => if k ∈ ks then { x with ended := some (confirmed, w.now) } else x

/-- What happens next, if it can. Only on a session that was opened somebody can wait, only a wait
whose time is over can notice that, and no time passes while there is one. -/
def step? (criterion : Criterion) (w : Watch) : Event → Option Watch
  | .start agent => some { w with board := (w.board.start agent).1 }
  | .release s => some { w with board := w.board.release s }
  | .receive m =>
    let (board, released) := w.board.receive criterion m
    some { w with board := board, stays := w.conclude released true }
  | .wait s nanos =>
    if s < w.board.sessions.length then
      let (board, confirmed) := w.board.wait s w.stays.length
      let ended := if confirmed then some (true, w.now) else none
      some { w with board := board, stays := w.stays ++ [⟨s, timerTime w.now nanos, ended⟩] }
    else none
  | .expire k =>
    match w.stays[k]? with
    | some x =>
      if x.ended = none ∧ x.deadline ≤ w.now then
        some { w with board := w.board.giveUp x.session k, stays := w.conclude [k] false }
      else none
    | none => none
  | .tick => if w.due = [] then some { w with now := w.now + 1 } else none

def run? (criterion : Criterion) (events : List Event) : Option Watch :=
  events.foldlM (step? criterion) fresh

/-! ## What a history tells -/

def Event.change? : Event → Option Board.Change
  | .start agent => some (.start agent)
  | .release s => some (.release s)
  | _ => none

/-- The session that was opened last for an agent, unless it was released. -/
def Counts (events : List Event) (s : SessionId) (i : Identity) : Prop :=
  Board.Counts (events.filterMap Event.change?) s i

/-- A message that comes in after some events meets the criterion for the agent for whom a session
counts. -/
def Confirms (criterion : Criterion) (events : List Event) (m : Message) (s : SessionId) : Prop :=
  ∃ i, Counts events s i ∧ criterion m i = true

/-- After some events a wait on a session goes on. -/
def Awaited (criterion : Criterion) (events : List Event) (s : SessionId) : Prop :=
  ∃ w, run? criterion events = some w ∧ w.pending s ≠ []

/-- A message confirmed a session while nobody waited, and nobody has waited since. -/
def Unused (criterion : Criterion) (events : List Event) (s : SessionId) : Prop :=
  Since (fun earlier x => ∃ m, x = .receive m ∧ Confirms criterion earlier m s ∧
      ¬Awaited criterion earlier s)
    (fun x => ∃ nanos, x = .wait s nanos) events

/-- After some events a message comes in at a time and confirms a session on which a wait goes on
that has waited longest. -/
def Frees (criterion : Criterion) (s : SessionId) (k t : Nat) (events : List Event) (x : Event) :
    Prop :=
  ∃ m w, x = .receive m ∧ Confirms criterion events m s ∧ run? criterion events = some w ∧
    (w.pending s).head? = some k ∧ w.now = t

variable {criterion : Criterion} {events pre post : List Event} {x : Event} {w w' v : Watch}
  {i : Identity} {s t : SessionId} {m : Message} {k n nanos : Nat} {ks : List Nat} {c : Bool}
  {p : Stay → Bool} {y : Stay} {T : Nat}

theorem run?_append :
    run? criterion (pre ++ post) = (run? criterion pre).bind (post.foldlM (step? criterion)) := by
  simp [run?, List.foldlM_append]

theorem run?_concat :
    run? criterion (events ++ [x]) = (run? criterion events).bind (step? criterion · x) := by
  simp [run?, List.foldlM_append]

theorem step?_receive : step? criterion w (.receive m) = some w' ↔
    { w with
      board := (w.board.receive criterion m).1
      stays := w.conclude (w.board.receive criterion m).2 true } = w' := by
  simp [step?]

theorem step?_wait : step? criterion w (.wait s nanos) = some w' ↔
    s < w.board.sessions.length ∧
      { w with
        board := (w.board.wait s w.stays.length).1
        stays := w.stays ++ [⟨s, timerTime w.now nanos,
          if (w.board.session s).confirmed then some (true, w.now) else none⟩] } = w' := by
  simp [step?, Board.wait_eq]

theorem step?_expire : step? criterion w (.expire k) = some w' ↔
    ∃ y, w.stays[k]? = some y ∧ y.ended = none ∧ y.deadline ≤ w.now ∧
      { w with board := w.board.giveUp y.session k, stays := w.conclude [k] false } = w' := by
  cases h : w.stays[k]? <;> simp [step?, h, and_assoc]

theorem step?_tick : step? criterion w .tick = some w' ↔
    w.due = [] ∧ { w with now := w.now + 1 } = w' := by
  simp [step?]

/-! ## Waits by their numbers -/

theorem mem_places : k ∈ w.places p ↔ ∃ y, w.stays[k]? = some y ∧ p y = true := by
  simp only [places, List.mem_filter, List.mem_range]
  constructor
  · rintro ⟨hk, hp⟩
    exact ⟨w.stays[k], by simp [hk], by simpa [hk] using hp⟩
  · rintro ⟨y, hy, hp⟩
    exact ⟨(List.getElem?_eq_some_iff.1 hy).1, by simp [hy, hp]⟩

theorem nodup_places : (w.places p).Nodup :=
  List.nodup_range.filter _

theorem mem_pending :
    k ∈ w.pending s ↔ ∃ y, w.stays[k]? = some y ∧ y.session = s ∧ y.ended = none := by
  simp [pending, mem_places]

theorem of_mem_pending (hy : w.stays[k]? = some y) (hk : k ∈ w.pending s) :
    y.session = s ∧ y.ended = none := by
  obtain ⟨z, hz, hsession, hended⟩ := mem_pending.1 hk
  obtain rfl : y = z := Option.some.inj (hy.symm.trans hz)
  exact ⟨hsession, hended⟩

theorem getElem?_conclude :
    (w.conclude ks c)[k]? = w.stays[k]?.map fun y =>
      if k ∈ ks then { y with ended := some (c, w.now) } else y := by
  simp [conclude]

/-- A sort of waits that go on is left by those that end. -/
theorem places_conclude {board : Board Nat} {now : Nat} (hp : ∀ y, p y = true → y.ended = none) :
    places ⟨board, now, w.conclude ks c⟩ p = (w.places p).filter (· ∉ ks) := by
  simp only [places, List.filter_filter, getElem?_conclude]
  rw [show (w.conclude ks c).length = w.stays.length by simp [conclude]]
  refine List.filter_congr fun k _ => ?_
  have hended : ∀ y : Stay, p { y with ended := some (c, w.now) } = false := by
    intro y
    by_contra h
    have := hp _ (Bool.not_eq_false _ ▸ h)
    simp at this
  by_cases hk : k ∈ ks
  · cases h : w.stays[k]? <;> simp [hk, hended]
  · cases h : w.stays[k]? <;> simp [hk]

theorem pending_conclude {board : Board Nat} {now : Nat} :
    pending ⟨board, now, w.conclude ks c⟩ s = (w.pending s).filter (· ∉ ks) :=
  places_conclude fun y hy => by simpa using (Bool.and_eq_true_iff.1 hy).2

/-- A wait that begins comes last. -/
theorem pending_append {board : Board Nat} {now : Nat} :
    pending ⟨board, now, w.stays ++ [y]⟩ s =
      w.pending s ++ if y.session = s ∧ y.ended = none then [w.stays.length] else [] := by
  have hold : ∀ k ∈ List.range w.stays.length, (w.stays ++ [y])[k]? = w.stays[k]? := by
    intro k hk
    exact List.getElem?_append_left (List.mem_range.1 hk)
  simp only [pending, places, List.length_append, List.length_singleton, List.range_succ,
    List.filter_append]
  congr 1
  · exact List.filter_congr fun k hk => by simp only [hold k hk]
  · by_cases hy : y.session = s ∧ y.ended = none <;> simp [hy]

/-! ## What every event keeps -/

/-- A watch after some events. -/
structure Kept (events : List Event) (w : Watch) : Prop where
  follows : w.board.Follows (events.filterMap Event.change?)
  waiters : ∀ s, (w.board.session s).waiters = w.pending s
  /-- A confirmation is left only where nobody waits. -/
  alone : ∀ s, (w.board.session s).confirmed = true → w.pending s = []
  timely : ∀ {k : Nat} {y : Stay}, w.stays[k]? = some y → y.Timely w.now

namespace Kept

theorem fresh : Kept [] fresh where
  follows := .empty
  waiters := fun _ => rfl
  alone := fun _ _ => rfl
  timely := by simp [Watch.fresh]

theorem mem_confirmedBy (h : Kept events w) :
    s ∈ w.board.confirmedBy criterion m ↔ Confirms criterion events m s := by
  simp [Board.mem_confirmedBy, h.follows.current, Confirms, Counts]

/-- Whom a message releases: of each session that it confirms the longest waiting. -/
theorem mem_released (h : Kept events w) : k ∈ (w.board.receive criterion m).2 ↔
    ∃ s ∈ w.board.confirmedBy criterion m, (w.pending s).head? = some k := by
  simp [h.follows.released_receive, h.waiters]

/-- A wait is released if its session is confirmed and it has waited longest there. -/
theorem mem_released_iff (h : Kept events w) (hy : w.stays[k]? = some y) :
    k ∈ (w.board.receive criterion m).2 ↔
      y.session ∈ w.board.confirmedBy criterion m ∧ (w.pending y.session).head? = some k := by
  rw [h.mem_released]
  constructor
  · rintro ⟨s, hs, hhead⟩
    obtain ⟨rfl, -⟩ := of_mem_pending hy (List.mem_of_mem_head? hhead)
    exact ⟨hs, hhead⟩
  · rintro ⟨hs, hhead⟩
    exact ⟨y.session, hs, hhead⟩

theorem pending_receive (h : Kept events w) {board : Board Nat} {now : Nat} :
    pending ⟨board, now, w.conclude (w.board.receive criterion m).2 c⟩ s =
      if s ∈ w.board.confirmedBy criterion m then (w.pending s).tail else w.pending s := by
  rw [pending_conclude]
  by_cases hs : s ∈ w.board.confirmedBy criterion m
  · rw [if_pos hs]
    cases hpending : w.pending s with
    | nil => simp
    | cons k rest =>
      have hmem : ∀ j ∈ k :: rest, (j ∈ (w.board.receive criterion m).2 ↔ j = k) := by
        intro j hj
        obtain ⟨y, hy, rfl, -⟩ := mem_pending.1 (hpending ▸ hj)
        rw [h.mem_released_iff hy]
        simp [hs, hpending, eq_comm]
      have hk : k ∉ rest := by
        have hnodup : (w.pending s).Nodup := nodup_places
        exact (List.nodup_cons.1 (hpending ▸ hnodup)).1
      have hrest : ∀ j ∈ rest, j ∉ (w.board.receive criterion m).2 := by
        intro j hj
        rw [hmem j (by simp [hj])]
        exact fun hjk => hk (hjk ▸ hj)
      simpa [hmem k (by simp)] using hrest
  · rw [if_neg hs]
    refine List.filter_eq_self.2 fun j hj => ?_
    obtain ⟨y, hy, rfl, -⟩ := mem_pending.1 hj
    simp [h.mem_released_iff hy, hs]

theorem receive (h : Kept events w) :
    Kept (events ++ [.receive m]) { w with
      board := (w.board.receive criterion m).1
      stays := w.conclude (w.board.receive criterion m).2 true } where
  follows := by simpa [List.filterMap_cons, Event.change?] using h.follows.alike Board.alike_receive
  waiters := by
    intro s
    rw [h.pending_receive, h.follows.session_receive]
    split <;> simp [h.waiters]
  alone := by
    intro s
    rw [h.pending_receive, h.follows.session_receive]
    split
    · have halone := h.alone s
      simp only [Session.confirmed_confirm, h.waiters, Bool.or_eq_true, List.isEmpty_iff]
      rintro (hs | hs)
      · simp [halone hs]
      · simp [hs]
    · exact h.alone s
  timely := by
    intro k y hy
    obtain ⟨z, hz, rfl⟩ := Option.map_eq_some_iff.1 (getElem?_conclude ▸ hy)
    split
    · next hk =>
      have hhead := ((h.mem_released_iff hz).1 hk).2
      have hended := (of_mem_pending hz (List.mem_of_mem_head? hhead)).2
      have htimely := h.timely hz
      simpa [Stay.Timely, hended] using htimely
    · exact h.timely hz

theorem wait (h : Kept events w) (hs : s < w.board.sessions.length) :
    Kept (events ++ [.wait s nanos]) { w with
      board := (w.board.wait s w.stays.length).1
      stays := w.stays ++ [⟨s, timerTime w.now nanos,
        if (w.board.session s).confirmed then some (true, w.now) else none⟩] } where
  follows := by
    simpa [List.filterMap_cons, Event.change?] using h.follows.alike Board.alike_wait
  waiters := by
    intro t
    rw [pending_append, Board.wait_eq, Board.session_set]
    by_cases hts : t = s
    · subst hts
      cases hconfirmed : (w.board.session t).confirmed <;>
        simp [hs, hconfirmed, Session.waiters_waited, h.waiters]
    · simp [hts, Ne.symm hts, h.waiters]
  alone := by
    intro t
    rw [pending_append, Board.wait_eq, Board.session_set]
    by_cases hts : t = s
    · simp [hts, hs]
    · simpa [hts, Ne.symm hts] using h.alone t
  timely := by
    intro k y hy
    rw [List.getElem?_append] at hy
    split at hy
    · exact h.timely hy
    · obtain rfl := by simpa using (List.getElem?_eq_some_iff.1 hy).2
      have hlater : w.now ≤ timerTime w.now nanos := Nat.le_add_right _ _
      cases hconfirmed : (w.board.session s).confirmed <;> simpa [Stay.Timely] using hlater

theorem expire (h : Kept events w) (hy : w.stays[k]? = some y) (hended : y.ended = none)
    (hdue : y.deadline ≤ w.now) :
    Kept (events ++ [.expire k]) { w with
      board := w.board.giveUp y.session k
      stays := w.conclude [k] false } where
  follows := by
    simpa [List.filterMap_cons, Event.change?] using h.follows.alike Board.alike_giveUp
  waiters := by
    intro t
    have hk : k ∈ w.pending y.session := mem_pending.2 ⟨y, hy, rfl, hended⟩
    have hlt : y.session < w.board.sessions.length := by
      by_contra hle
      rw [← h.waiters, Board.session_of_length_le (Nat.le_of_not_lt hle)] at hk
      contradiction
    rw [pending_conclude, Board.giveUp, Board.session_set]
    by_cases hts : t = y.session
    · simp [hts, hlt, h.waiters, bne, beq_eq_decide]
    · have hother : k ∉ w.pending t := by
        intro hk
        exact hts (of_mem_pending hy hk).1.symm
      rw [if_neg fun h => hts h.1, h.waiters, eq_comm, List.filter_eq_self]
      rintro j hj
      simp [show j ≠ k from fun hjk => hother (hjk ▸ hj)]
  alone := by
    intro t
    rw [pending_conclude, Board.giveUp, Board.session_set]
    have halone := h.alone t
    split
    · next ht =>
      rw [← ht.1]
      intro ht
      simp [halone ht]
    · intro ht
      simp [halone ht]
  timely := by
    intro j z hz
    obtain ⟨x, hx, rfl⟩ := Option.map_eq_some_iff.1 (getElem?_conclude ▸ hz)
    split
    · next hj =>
      obtain rfl := List.mem_singleton.1 hj
      obtain rfl : y = x := Option.some.inj (hy.symm.trans hx)
      have htimely := h.timely hy
      simp only [Stay.Timely, hended] at htimely ⊢
      omega
    · exact h.timely hx

theorem start (h : Kept events w) :
    Kept (events ++ [.start i]) { w with board := (w.board.start i).1 } where
  follows := by simpa [List.filterMap_cons, Event.change?] using h.follows.start
  waiters := by
    intro s
    rw [Board.session_start]
    split
    · next hs =>
      have hnobody := h.waiters s
      rw [hs, Board.session_of_length_le (Nat.le_refl _)] at hnobody
      exact hs ▸ hnobody
    · exact h.waiters s
  alone := by
    intro s
    rw [Board.session_start]
    split
    · simp
    · exact h.alone s
  timely := h.timely

theorem release (h : Kept events w) :
    Kept (events ++ [.release s]) { w with board := w.board.release s } where
  follows := by simpa [List.filterMap_cons, Event.change?] using h.follows.release
  waiters := h.waiters
  alone := h.alone
  timely := h.timely

theorem tick (h : Kept events w) (hdue : w.due = []) :
    Kept (events ++ [.tick]) { w with now := w.now + 1 } where
  follows := by simpa [List.filterMap_cons, Event.change?] using h.follows
  waiters := h.waiters
  alone := h.alone
  timely := by
    intro k y hy
    have htimely := h.timely hy
    cases hended : y.ended with
    | some e =>
      obtain ⟨c, t⟩ := e
      cases c <;> simpa [Stay.Timely, hended] using htimely
    | none =>
      have hnot : k ∉ w.due := by simp [hdue]
      rw [due, mem_places] at hnot
      have hlate : ¬y.deadline ≤ w.now := fun hle => hnot ⟨y, hy, by simp [hended, hle]⟩
      simp only [Stay.Timely, hended]
      omega

theorem step (h : Kept events w) (hstep : step? criterion w x = some w') :
    Kept (events ++ [x]) w' := by
  cases x with
  | start i => exact Option.some.inj hstep ▸ h.start
  | release s => exact Option.some.inj hstep ▸ h.release
  | receive m => exact step?_receive.1 hstep ▸ h.receive
  | wait s nanos =>
    obtain ⟨hs, rfl⟩ := step?_wait.1 hstep
    exact h.wait hs
  | expire k =>
    obtain ⟨y, hy, hended, hdue, rfl⟩ := step?_expire.1 hstep
    exact h.expire hy hended hdue
  | tick =>
    obtain ⟨hdue, rfl⟩ := step?_tick.1 hstep
    exact h.tick hdue

end Kept

theorem kept_of_run (hrun : run? criterion events = some w) : Kept events w := by
  induction events using List.reverseRecOn generalizing w with
  | nil => exact Option.some.inj hrun ▸ .fresh
  | append_singleton events x ih =>
    obtain ⟨v, hv, hstep⟩ := Option.bind_eq_some_iff.1 (run?_concat ▸ hrun)
    exact (ih hv).step hstep

/-! ## Sessions -/

/-- A confirmation is left behind by a message if nobody waits, and used up by the next wait. -/
theorem Kept.confirmed_step (h : Kept events v) (hstep : step? criterion v x = some w) :
    (w.board.session s).confirmed = true ↔
      (∃ m, x = .receive m ∧ Confirms criterion events m s ∧ v.pending s = []) ∨
        (¬∃ nanos, x = .wait s nanos) ∧ (v.board.session s).confirmed = true := by
  cases x with
  | start i =>
    obtain rfl := Option.some.inj hstep
    rw [Board.session_start]
    split
    · next hs => simp [hs, Board.session_of_length_le]
    · simp
  | release t =>
    obtain rfl := Option.some.inj hstep
    simp
  | receive m =>
    obtain rfl := step?_receive.1 hstep
    rw [h.follows.session_receive]
    split
    · next hs => simp [h.waiters, h.mem_confirmedBy.1 hs, or_comm]
    · next hs => simp [mt h.mem_confirmedBy.2 hs]
  | wait t nanos =>
    obtain ⟨ht, rfl⟩ := step?_wait.1 hstep
    rw [Board.wait_eq, Board.session_set]
    by_cases hst : s = t
    · simp [hst, ht]
    · simp [hst, Ne.symm hst]
  | expire k =>
    obtain ⟨y, -, -, -, rfl⟩ := step?_expire.1 hstep
    rw [Board.giveUp, Board.session_set]
    split <;> simp [*]
  | tick =>
    obtain ⟨-, rfl⟩ := step?_tick.1 hstep
    simp

theorem confirmed_iff (hrun : run? criterion events = some w) :
    (w.board.session s).confirmed = true ↔ Unused criterion events s := by
  induction events using List.reverseRecOn generalizing w with
  | nil =>
    obtain rfl := Option.some.inj hrun
    exact iff_of_false (by simp [fresh, Board.session_of_length_le, Board.empty]) not_since_nil
  | append_singleton events x ih =>
    obtain ⟨v, hv, hstep⟩ := Option.bind_eq_some_iff.1 (run?_concat ▸ hrun)
    rw [Unused, since_concat, ← Unused, ← ih hv, (kept_of_run hv).confirmed_step hstep]
    simp [Awaited, hv]

/-! ## Waits -/

/-- A wait goes on until it expires, or a message releases it that confirms its session when it has
waited longest. -/
theorem exists_stay_step (hv : run? criterion events = some v)
    (hstep : step? criterion v x = some w) (hy : v.stays[k]? = some y) :
    ∃ z, w.stays[k]? = some z ∧ z.session = y.session ∧ z.deadline = y.deadline ∧
      ∀ t, z.ended = some (true, t) ↔
        Frees criterion y.session k t events x ∨ y.ended = some (true, t) := by
  have h := kept_of_run hv
  cases x with
  | start i =>
    obtain rfl := Option.some.inj hstep
    exact ⟨y, hy, rfl, rfl, by simp [Frees]⟩
  | release t =>
    obtain rfl := Option.some.inj hstep
    exact ⟨y, hy, rfl, rfl, by simp [Frees]⟩
  | receive m =>
    obtain rfl := step?_receive.1 hstep
    refine ⟨_, by rw [getElem?_conclude, hy]; rfl, ?_, ?_, fun t => ?_⟩
    · split <;> rfl
    · split <;> rfl
    · have hk : k ∈ (v.board.receive criterion m).2 ↔ _ := h.mem_released_iff hy
      rw [h.mem_confirmedBy] at hk
      by_cases hreleased : k ∈ (v.board.receive criterion m).2
      · obtain ⟨hconfirms, hhead⟩ := hk.1 hreleased
        have hended := (of_mem_pending hy (List.mem_of_mem_head? hhead)).2
        simp [hreleased, Frees, hv, hended, hconfirms, hhead]
      · have hnot : ¬Frees criterion y.session k t events (.receive m) := by
          rintro ⟨_, u, ⟨rfl⟩, hconfirms, hu, hhead, -⟩
          obtain rfl := Option.some.inj (hv.symm.trans hu)
          exact hreleased (hk.2 ⟨hconfirms, hhead⟩)
        simp [hreleased, hnot]
  | wait t nanos =>
    obtain ⟨-, rfl⟩ := step?_wait.1 hstep
    refine ⟨y, ?_, rfl, rfl, by simp [Frees]⟩
    exact (List.getElem?_append_left (List.getElem?_eq_some_iff.1 hy).1).trans hy
  | expire j =>
    obtain ⟨z, hz, hended, -, rfl⟩ := step?_expire.1 hstep
    refine ⟨_, by rw [getElem?_conclude, hy]; rfl, ?_, ?_, fun t => ?_⟩
    · split <;> rfl
    · split <;> rfl
    · by_cases hkj : k = j
      · subst hkj
        obtain rfl : y = z := Option.some.inj (hy.symm.trans hz)
        simp [Frees, hended]
      · simp [Frees, hkj]
  | tick =>
    obtain ⟨-, rfl⟩ := step?_tick.1 hstep
    exact ⟨y, hy, rfl, rfl, by simp [Frees]⟩

/-- A wait is confirmed when it begins, if a confirmation is left, or by a message later on. -/
theorem exists_stay (hrun : run? criterion (pre ++ .wait s nanos :: post) = some w)
    (hv : run? criterion pre = some v) :
    ∃ y, w.stays[v.stays.length]? = some y ∧ y.session = s ∧
      y.deadline = timerTime v.now nanos ∧
      ∀ t, y.ended = some (true, t) ↔ (Unused criterion pre s ∧ t = v.now) ∨
        Since (fun mid x => Frees criterion s v.stays.length t (pre ++ .wait s nanos :: mid) x)
          (fun _ => False) post := by
  induction post using List.reverseRecOn generalizing w with
  | nil =>
    obtain ⟨-, rfl⟩ := step?_wait.1 (by simpa [run?_concat, hv] using hrun)
    refine ⟨_, by simp; rfl, rfl, rfl, fun t => ?_⟩
    rw [← confirmed_iff hv]
    simp [@eq_comm _ t]
  | append_singleton post x ih =>
    have hevents : pre ++ .wait s nanos :: (post ++ [x]) = (pre ++ .wait s nanos :: post) ++ [x] := by
      simp
    rw [hevents, run?_concat] at hrun
    obtain ⟨u, hu, hstep⟩ := Option.bind_eq_some_iff.1 hrun
    obtain ⟨y, hy, rfl, hdeadline, hended⟩ := ih hu
    obtain ⟨z, hz, hsession, hdeadline', hended'⟩ := exists_stay_step hu hstep hy
    refine ⟨z, hz, hsession, hdeadline'.trans hdeadline, fun t => ?_⟩
    rw [hended', hended, since_concat]
    simp [or_left_comm]

/-! ## Time -/

/-- All waits whose time is over can notice that. -/
theorem exists_settle (criterion : Criterion) (w : Watch) :
    ∃ (more : List Event) (w' : Watch), (∀ x ∈ more, ∃ k, x = .expire k) ∧
      more.foldlM (step? criterion) w = some w' ∧ w'.due = [] ∧ w'.now = w.now := by
  induction h : w.due.length using Nat.strongRecOn generalizing w with
  | ind n ih =>
    subst h
    cases hdue : w.due with
    | nil => exact ⟨[], w, by simp, rfl, hdue, rfl⟩
    | cons k rest =>
      have hk : k ∈ w.due := by simp [hdue]
      obtain ⟨y, hy, hlate⟩ := mem_places.1 hk
      obtain ⟨hended, hlate⟩ : y.ended = none ∧ y.deadline ≤ w.now := by simpa using hlate
      have hstep : step? criterion w (.expire k) = some _ :=
        step?_expire.2 ⟨y, hy, hended, hlate, rfl⟩
      have hfewer : (due { w with
          board := w.board.giveUp y.session k
          stays := w.conclude [k] false }).length < w.due.length := by
        rw [due, places_conclude fun z hz => by simpa using (Bool.and_eq_true_iff.1 hz).1]
        exact List.length_filter_lt_length_iff_exists.2 ⟨k, hk, by simp⟩
      obtain ⟨more, w', hmore, hrun, hnone, hnow⟩ := ih _ hfewer _ rfl
      refine ⟨.expire k :: more, w', ?_, ?_, hnone, hnow⟩
      · simpa using hmore
      · rw [List.foldlM_cons, hstep]
        exact hrun

/-- Time can go on for ever. -/
theorem exists_elapse (criterion : Criterion) (hT : w.now ≤ T) : ∃ (more : List Event) (w' : Watch),
    (∀ x ∈ more, x = .tick ∨ ∃ k, x = .expire k) ∧
    more.foldlM (step? criterion) w = some w' ∧ w'.now = T := by
  obtain ⟨n, rfl⟩ := Nat.exists_eq_add_of_le hT
  clear hT
  induction n with
  | zero => exact ⟨[], w, by simp, rfl, rfl⟩
  | succ n ih =>
    obtain ⟨before, v, hbefore, hv, hnow⟩ := ih
    obtain ⟨expiring, u, hexpiring, hu, hdue, hsame⟩ := exists_settle criterion v
    refine ⟨before ++ (expiring ++ [.tick]), { u with now := u.now + 1 }, ?_, ?_, ?_⟩
    · intro x hx
      simp only [List.mem_append, List.mem_singleton] at hx
      rcases hx with hx | hx | hx
      · exact hbefore x hx
      · exact .inr (hexpiring x hx)
      · exact .inl hx
    · simp [List.foldlM_append, hv, hu, step?, hdue]
    · simp only [hsame, hnow]
      omega

/-! ## The two accounts -/

/-- What a message does to a session and to the waits on it, if it confirms that session and if it
does not. -/
theorem receive_run (hv : run? criterion pre = some v)
    (hw : run? criterion (pre ++ [.receive m]) = some w) (s : SessionId) :
    (Confirms criterion pre m s → w.pending s = (v.pending s).tail ∧
      ((w.board.session s).confirmed = true ↔ v.pending s = [])) ∧
    (¬Confirms criterion pre m s → w.board.session s = v.board.session s ∧
      ∀ (k : Nat) (y : Stay), v.stays[k]? = some y → y.session = s → w.stays[k]? = some y) := by
  have h := kept_of_run hv
  obtain rfl := step?_receive.1 (by simpa [run?_concat, hv] using hw)
  rw [← h.mem_confirmedBy, h.pending_receive, h.follows.session_receive]
  refine ⟨fun hs => ?_, fun hs => ⟨by simp [hs], ?_⟩⟩
  · have halone := h.alone s
    simp only [hs, if_true, Session.confirmed_confirm, h.waiters, Bool.or_eq_true,
      List.isEmpty_iff, true_and]
    exact ⟨fun hnow => hnow.elim halone id, .inr⟩
  · rintro k y hy rfl
    simp [getElem?_conclude, hy, h.mem_released_iff hy, hs]

/-- What can be told of a watch from its history. -/
structure Told (criterion : Criterion) (events : List Event) (w : Watch) : Prop where
  /-- For an agent that session counts which was opened for it last, unless it was released. -/
  current : ∀ i s, w.board.current.get? i = some s ↔ Counts events s i
  /-- There is a confirmation on a session, or none, and it is there if a message confirmed the
  session while nobody waited and nobody has waited since. -/
  unused : ∀ s, (w.board.session s).confirmed = true ↔ Unused criterion events s
  /-- Nobody waits where there is one. -/
  alone : ∀ s, (w.board.session s).confirmed = true → w.pending s = []
  /-- A message that confirms a session releases the longest waiting and nobody else, and leaves a
  confirmation if nobody waits. A message that does not changes nothing for the session and for
  those who wait on it. -/
  receive : ∀ {pre m post}, events = pre ++ .receive m :: post → ∃ v v',
    run? criterion pre = some v ∧ run? criterion (pre ++ [.receive m]) = some v' ∧ ∀ s,
      (Confirms criterion pre m s → v'.pending s = (v.pending s).tail ∧
        ((v'.board.session s).confirmed = true ↔ v.pending s = [])) ∧
      (¬Confirms criterion pre m s → v'.board.session s = v.board.session s ∧
        ∀ (k : Nat) (y : Stay), v.stays[k]? = some y → y.session = s → v'.stays[k]? = some y)
  /-- A wait is confirmed at once if there was a confirmation, or when a message releases it, and not
  otherwise. -/
  wait : ∀ {pre s nanos post}, events = pre ++ .wait s nanos :: post → ∃ v y,
    run? criterion pre = some v ∧ w.stays[v.stays.length]? = some y ∧ y.session = s ∧
      y.deadline = timerTime v.now nanos ∧
      ∀ t, y.ended = some (true, t) ↔ (Unused criterion pre s ∧ t = v.now) ∨
        Since (fun mid x => Frees criterion s v.stays.length t (pre ++ .wait s nanos :: mid) x)
          (fun _ => False) post
  /-- A wait that is not confirmed ends when its time is over, and no later. -/
  timely : ∀ {k : Nat} {y : Stay}, w.stays[k]? = some y → y.Timely w.now
  /-- Whatever has happened, time can go on until the time of every wait is over. -/
  elapse : ∀ T, w.now ≤ T → ∃ (more : List Event) (w' : Watch),
    (∀ x ∈ more, x = .tick ∨ ∃ k, x = .expire k) ∧
      run? criterion (events ++ more) = some w' ∧ w'.now = T

/-- What happens before comes first. -/
theorem exists_run (hrun : run? criterion (pre ++ post) = some w) :
    ∃ v, run? criterion pre = some v := by
  rw [run?_append] at hrun
  obtain ⟨v, hv, -⟩ := Option.bind_eq_some_iff.1 hrun
  exact ⟨v, hv⟩

/-- **Every run of a watch is as its history tells.** No confirmation is lost, none comes from
nowhere, and none gets to anybody but the longest waiting on the session that it is for. -/
theorem told_of_run (hrun : run? criterion events = some w) : Told criterion events w where
  current := fun _ _ => (kept_of_run hrun).follows.current
  unused := fun _ => confirmed_iff hrun
  alone := (kept_of_run hrun).alone
  receive := by
    rintro pre m post rfl
    obtain ⟨v, hv⟩ := exists_run hrun
    have hrun' : run? criterion ((pre ++ [.receive m]) ++ post) = some w := by simpa using hrun
    obtain ⟨v', hv'⟩ := exists_run hrun'
    exact ⟨v, v', hv, hv', receive_run hv hv'⟩
  wait := by
    rintro pre s nanos post rfl
    obtain ⟨v, hv⟩ := exists_run hrun
    obtain ⟨y, hy, hstay⟩ := exists_stay hrun hv
    exact ⟨v, y, hv, hy, hstay⟩
  timely := (kept_of_run hrun).timely
  elapse := by
    intro T hT
    obtain ⟨more, w', hmore, hw', hnow⟩ := exists_elapse criterion hT
    exact ⟨more, w', hmore, by rw [run?_append, hrun]; exact hw', hnow⟩

/-- An agent joins again while it waits for nothing yet: its first session has been confirmed by
then, and the second one is confirmed when two wait on each. -/
def rejoin (i : Identity) : List Event :=
  [.start i, .receive (.presence default i default .empty), .start i, .wait 0 2000000,
    .wait 0 1000000, .wait 1 2000000, .wait 1 1000000,
    .receive (.presence default i default .empty), .tick, .expire 1, .expire 3]

theorem told_of_run_rejoin : ∃ w, run? .echo (rejoin default) = some w ∧
    w.stays.map (·.ended) =
      [some (true, 0), some (false, 1), some (true, 0), some (false, 1)] ∧
    Told .echo (rejoin default) w :=
  ⟨_, rfl, by decide, told_of_run rfl⟩

end Watch

end Overlay
