import Overlay.Fabric.Command
import Overlay.Proofs.Confirmation.Even
import Overlay.Proofs.Tasks

/-!
# The lobby of a lone engine

While joins wait, other things happen. The lobby is what those who wait depend on: the time, the
board and what confirms, and the tasks that will be ready or are.

An agent whose wait is over is dismissed from the lobby when it is its turn. Whether a message is
looked at before that or after it makes no difference but for what is left behind on a session that
counts no longer: the lobbies are even (`Lobby.Released.dismiss_inspect`).
-/

namespace Overlay

/-- What joins depend on while they wait. -/
structure Lobby where
  now : Nat
  timers : List (Nat × Task)
  /-- The tasks that are ready, apart from the worker. -/
  ready : List Task
  confirmed : List ThreadId
  criterion : Criterion
  board : Board ThreadId

namespace Lobby

/-- A message confirms what it confirms, and those who are released become ready. -/
def inspect (c : Lobby) (m : Message) : Lobby :=
  let (board, released) := c.board.receive c.criterion m
  { c with
    board := board
    confirmed := released.reverse ++ c.confirmed
    ready := enqueued c.ready (released.map .thread) }

/-- A thread whose turn it is waits no longer, whether it is confirmed or out of time. -/
def dismiss (c : Lobby) (t : ThreadId) (s : SessionId) : Lobby :=
  { c with
    timers := c.timers.filter (·.2 ≠ .thread t)
    ready := c.ready.tail
    confirmed := c.confirmed.filter (· ≠ t)
    board := (c.board.giveUp s t).release s }

/-- Time goes on to a moment, and the tasks whose timers fire become ready. -/
def elapseTo (c : Lobby) (time : Nat) : Lobby :=
  { c with
    now := max c.now time
    timers := c.timers.filter (time < ·.1)
    ready := enqueued c.ready ((c.timers.filter (·.1 ≤ time)).map Prod.snd) }

def setTimer (c : Lobby) (time : Nat) (t : Task) : Lobby :=
  { c with timers := c.timers ++ [(time, t)] }

def setBoard (c : Lobby) (board : Board ThreadId) : Lobby :=
  { c with board := board }

variable {c d : Lobby} {m n : Message} {t u : ThreadId} {s : SessionId} {k : Task} {time : Nat}
  {W : ThreadId → SessionId → Nat → Prop}

theorem later_foldl_inspect (ms : List Message) : c.board.Later (ms.foldl inspect c).board := by
  induction ms generalizing c with
  | nil => exact .refl _
  | cons m ms ih =>
    have hnow : c.board.Later (c.inspect m).board := Board.later_receive c.criterion m
    exact hnow.trans ih

theorem now_foldl_inspect (ms : List Message) : (ms.foldl inspect c).now = c.now := by
  induction ms generalizing c with
  | nil => rfl
  | cons m ms ih => exact ih

theorem confirmed_foldl_inspect (h : t ∈ c.confirmed) (ms : List Message) :
    t ∈ (ms.foldl inspect c).confirmed := by
  induction ms generalizing c with
  | nil => exact h
  | cons m ms ih => exact ih (List.mem_append_right _ h)

/-- Messages make threads ready, and no other tasks. -/
theorem liveness_of_foldl_inspect {ms : List Message} (h : .liveness 0 ∈ (ms.foldl inspect c).ready) :
    .liveness 0 ∈ c.ready := by
  induction ms generalizing c with
  | nil => exact h
  | cons m ms ih => exact (mem_enqueued.1 (ih h)).resolve_right (by simp)

/-- Threads become ready as they are confirmed. -/
theorem thread_of_foldl_inspect {ms : List Message} (h : .thread t ∈ (ms.foldl inspect c).ready) :
    .thread t ∈ c.ready ∨ t ∈ (ms.foldl inspect c).confirmed := by
  induction ms generalizing c with
  | nil => exact .inl h
  | cons m ms ih =>
    rcases ih h with hready | hconfirmed
    · refine (mem_enqueued.1 hready).imp_right fun hreleased => ?_
      obtain ⟨u, hu, hsame⟩ := List.mem_map.1 hreleased
      obtain rfl := Task.thread.inj hsame
      exact confirmed_foldl_inspect (List.mem_append_left _ (List.mem_reverse.2 hu)) ms
    · exact .inr hconfirmed

/-- Who is ready keeps the place. -/
theorem prefix_foldl_inspect (ms : List Message) : c.ready <+: (ms.foldl inspect c).ready := by
  induction ms generalizing c with
  | nil => exact List.prefix_rfl
  | cons m ms ih =>
    have hnow : c.ready <+: (c.inspect m).ready := prefix_enqueued
    exact hnow.trans ih

/-! ### Even lobbies -/

/-- Two lobbies differ at most in what is left behind on sessions that count no longer. -/
def Even (c d : Lobby) : Prop :=
  ∃ board, c.board.Even board ∧ d = c.setBoard board

namespace Even

theorem refl (c : Lobby) : c.Even c := ⟨c.board, .refl _, rfl⟩

theorem trans {e : Lobby} (h : c.Even d) (h' : d.Even e) : c.Even e := by
  obtain ⟨board, hboard, rfl⟩ := h
  obtain ⟨board', hboard', rfl⟩ := h'
  exact ⟨board', hboard.trans hboard', rfl⟩

theorem inspect (h : c.Even d) (hmn : ∀ i, c.criterion n i = c.criterion m i) :
    (c.inspect m).Even (d.inspect n) := by
  obtain ⟨board, hboard, rfl⟩ := h
  obtain ⟨hreceived, hreleased⟩ := hboard.receive hmn
  refine ⟨_, hreceived, ?_⟩
  simp only [Lobby.inspect, setBoard, hreleased]

theorem dismiss (h : c.Even d) (t : ThreadId) (s : SessionId) :
    (c.dismiss t s).Even (d.dismiss t s) := by
  obtain ⟨board, hboard, rfl⟩ := h
  exact ⟨_, (hboard.giveUp s t).release s, rfl⟩

theorem elapseTo (h : c.Even d) (time : Nat) : (c.elapseTo time).Even (d.elapseTo time) := by
  obtain ⟨board, hboard, rfl⟩ := h
  exact ⟨board, hboard, rfl⟩

theorem setTimer (h : c.Even d) (time : Nat) (t : Task) :
    (c.setTimer time t).Even (d.setTimer time t) := by
  obtain ⟨board, hboard, rfl⟩ := h
  exact ⟨board, hboard, rfl⟩

end Even

/-! ### Order in the lobby -/

/-- What is found in a lobby where threads wait on sessions until their deadlines. -/
structure Orderly (W : ThreadId → SessionId → Nat → Prop) (c : Lobby) : Prop where
  /-- A thread waits on one session only. -/
  single : ∀ {t s d s' d'}, W t s d → W t s' d' → s' = s
  /-- On a session one thread waits only. -/
  apart : ∀ {t u s d d'}, W t s d → W u s d' → u = t
  opened : ∀ {t s d}, W t s d → s < c.board.sessions.length
  owned : c.board.Owned
  nodup : c.ready.Nodup
  ready : ∀ {k}, k ∈ c.ready → k = .liveness 0 ∨
    ∃ t s d, k = .thread t ∧ W t s d ∧ (t ∈ c.confirmed ∨ d ≤ c.now)
  confirmed : ∀ {t}, t ∈ c.confirmed → .thread t ∈ c.ready ∧
    ∀ {s d}, W t s d → (c.board.session s).waiters = []
  waiters : ∀ {t s}, t ∈ (c.board.session s).waiters →
    (c.board.session s).waiters = [t] ∧ ∃ d, W t s d
  timers : ∀ {k}, k ∈ c.timers → k.2 = .liveness 0 ∨
    ∃ t s d, k.2 = .thread t ∧ W t s d ∧ d ≤ k.1

namespace Orderly

/-- Whom a message releases, and what it leaves behind. -/
theorem released (h : c.Orderly W) (ht : t ∈ (c.board.receive c.criterion m).2) :
    ∃ s d, W t s d ∧ ((c.board.receive c.criterion m).1.session s).waiters = [] := by
  rw [h.owned.released_receive] at ht
  obtain ⟨s, hs, hhead⟩ := List.mem_filterMap.1 ht
  obtain ⟨hwaiters, d, hd⟩ := h.waiters (List.mem_of_mem_head? hhead)
  refine ⟨s, d, hd, ?_⟩
  rw [h.owned.session_receive, if_pos hs, Session.waiters_confirm, hwaiters]
  rfl

theorem inspect (h : c.Orderly W) (m : Message) : (c.inspect m).Orderly W where
  single := h.single
  apart := h.apart
  opened := by
    intro t s d hd
    have hlater : c.board.Later (c.board.receive c.criterion m).1 := Board.later_receive _ _
    exact Nat.lt_of_lt_of_eq (h.opened hd) hlater.length.symm
  owned := h.owned.alike Board.alike_receive
  nodup := nodup_enqueued h.nodup
  ready := by
    intro k hk
    rcases mem_enqueued.1 hk with hk | hk
    · rcases h.ready hk with hk | ⟨t, s, d, hk, hd, hover⟩
      · exact .inl hk
      · exact .inr ⟨t, s, d, hk, hd, hover.imp_left (List.mem_append_right _)⟩
    · obtain ⟨t, ht, rfl⟩ := List.mem_map.1 hk
      obtain ⟨s, d, hd, -⟩ := h.released ht
      exact .inr ⟨t, s, d, rfl, hd, .inl (List.mem_append_left _ (List.mem_reverse.2 ht))⟩
  confirmed := by
    intro t ht
    have hlater : c.board.Later (c.board.receive c.criterion m).1 := Board.later_receive _ _
    rcases List.mem_append.1 ht with ht | ht
    · have ht := List.mem_reverse.1 ht
      refine ⟨mem_enqueued.2 (.inr (List.mem_map_of_mem ht)), fun hs => ?_⟩
      obtain ⟨s, d, hd, hnobody⟩ := h.released ht
      obtain rfl := h.single hd hs
      exact hnobody
    · obtain ⟨hready, hnobody⟩ := h.confirmed ht
      exact ⟨mem_enqueued.2 (.inl hready), fun hs => hlater.waiters (hnobody hs)⟩
  waiters := by
    intro t s ht
    change t ∈ ((c.board.receive c.criterion m).1.session s).waiters at ht
    change ((c.board.receive c.criterion m).1.session s).waiters = [t] ∧ _
    rw [h.owned.session_receive] at ht ⊢
    split at ht
    · next hs =>
      rw [Session.waiters_confirm] at ht
      obtain ⟨hwaiters, -⟩ := h.waiters (List.mem_of_mem_tail ht)
      rw [hwaiters] at ht
      cases ht
    · next hs =>
      rw [if_neg hs]
      exact h.waiters ht
  timers := h.timers

theorem foldl_inspect (h : c.Orderly W) (ms : List Message) :
    (ms.foldl Lobby.inspect c).Orderly W := by
  induction ms generalizing c with
  | nil => exact h
  | cons m ms ih => exact ih (h.inspect m)

/-- A thread whose turn it is leaves nothing behind. -/
theorem dismiss (h : c.Orderly W) {rest : List Task} {e : Nat}
    (hready : c.ready = .thread t :: rest) (ht : W t s e) :
    (c.dismiss t s).Orderly fun u s d => W u s d ∧ u ≠ t where
  single := fun hd hd' => h.single hd.1 hd'.1
  apart := fun hd hd' => h.apart hd.1 hd'.1
  opened := by
    intro u r d hd
    have hsame : ((c.board.giveUp s t).release s).sessions.length = c.board.sessions.length :=
      Board.alike_giveUp.length
    exact Nat.lt_of_lt_of_eq (h.opened hd.1) hsame.symm
  owned := (h.owned.alike Board.alike_giveUp).release
  nodup := h.nodup.tail
  ready := by
    intro k hk
    have hk' : k ∈ rest := by simpa [Lobby.dismiss, hready] using hk
    have hnot : Task.thread t ∉ rest := (List.nodup_cons.1 (hready ▸ h.nodup)).1
    rcases h.ready (hready ▸ List.mem_cons_of_mem _ hk') with rfl | ⟨u, r, d, rfl, hd, hover⟩
    · exact .inl rfl
    · have hut : u ≠ t := by
        rintro rfl
        exact hnot hk'
      exact .inr ⟨u, r, d, rfl, ⟨hd, hut⟩, hover.imp_left fun hu => List.mem_filter.2 ⟨hu, by simpa⟩⟩
  confirmed := by
    intro u hu
    obtain ⟨hu, hut⟩ := List.mem_filter.1 hu
    obtain ⟨hin, hnobody⟩ := h.confirmed hu
    constructor
    case left =>
      rw [hready] at hin
      simpa [Lobby.dismiss, hready, of_decide_eq_true hut] using hin
    case right =>
      intro r d hd
      rw [Lobby.dismiss, Board.session_release, Board.giveUp, Board.session_set]
      split
      · next hrs => simp [← hrs.1, hnobody hd.1]
      · exact hnobody hd.1
  waiters := by
    intro u r hu
    rw [Lobby.dismiss, Board.session_release, Board.giveUp, Board.session_set] at hu ⊢
    split at hu
    · next hrs =>
      obtain ⟨rfl, hlt⟩ := hrs
      obtain ⟨hu, hut⟩ := List.mem_filter.1 hu
      obtain ⟨hwaiters, d, hd⟩ := h.waiters hu
      exact absurd (h.apart ht hd) (by simpa using hut)
    · next hrs =>
      rw [if_neg hrs]
      obtain ⟨hwaiters, d, hd⟩ := h.waiters hu
      refine ⟨hwaiters, d, hd, ?_⟩
      rintro rfl
      exact hrs ⟨h.single ht hd, h.opened ht⟩
  timers := by
    intro k hk
    obtain ⟨hk, hkt⟩ := List.mem_filter.1 hk
    rcases h.timers hk with hk | ⟨u, r, d, hu, hd, hle⟩
    · exact .inl hk
    · refine .inr ⟨u, r, d, hu, ⟨hd, ?_⟩, hle⟩
      rintro rfl
      exact of_decide_eq_true hkt hu

theorem elapseTo (h : c.Orderly W) (time : Nat) : (c.elapseTo time).Orderly W where
  single := h.single
  apart := h.apart
  opened := h.opened
  owned := h.owned
  nodup := nodup_enqueued h.nodup
  ready := by
    intro k hk
    rcases mem_enqueued.1 hk with hk | hk
    · rcases h.ready hk with hk | ⟨t, s, d, hk, hd, hover⟩
      · exact .inl hk
      · exact .inr ⟨t, s, d, hk, hd, hover.imp_right fun hle =>
          Nat.le_trans hle (Nat.le_max_left _ _)⟩
    · obtain ⟨e, he, rfl⟩ := List.mem_map.1 hk
      obtain ⟨he, hdue⟩ := List.mem_filter.1 he
      rcases h.timers he with he | ⟨t, s, d, he, hd, hle⟩
      · exact .inl he
      · have hpast : d ≤ time := Nat.le_trans hle (of_decide_eq_true hdue)
        exact .inr ⟨t, s, d, he, hd, .inr (Nat.le_trans hpast (Nat.le_max_right _ _))⟩
  confirmed := fun ht => ⟨mem_enqueued.2 (.inl (h.confirmed ht).1), (h.confirmed ht).2⟩
  waiters := h.waiters
  timers := fun hk => h.timers (List.mem_of_mem_filter hk)

/-- The next liveness pass is due. -/
theorem setTimer (h : c.Orderly W) (time : Nat) : (c.setTimer time (.liveness 0)).Orderly W :=
  { h with
    timers := by
      intro k hk
      rcases List.mem_append.1 hk with hk | hk
      · exact h.timers hk
      · obtain rfl := List.mem_singleton.1 hk
        exact .inl rfl }

/-- A session is opened on which nobody waits. -/
theorem openSession (h : c.Orderly W) (i : Identity) :
    (c.setBoard (c.board.start i).1).Orderly W :=
  { h with
    opened := fun hd => by
      simpa [setBoard, Board.start] using Nat.lt_succ_of_lt (h.opened hd)
    owned := h.owned.start
    confirmed := by
      intro t ht
      refine ⟨(h.confirmed ht).1, fun hs => ?_⟩
      simp only [setBoard, Board.session_start]
      split
      · rfl
      · exact (h.confirmed ht).2 hs
    waiters := by
      intro t s ht
      simp only [setBoard, Board.session_start] at ht ⊢
      split at ht
      · cases ht
      · next hs =>
        rw [if_neg hs]
        exact h.waiters ht }

/-- A task whose turn it is, and that waits on nothing. -/
theorem pop (h : c.Orderly W) {rest : List Task} (hready : c.ready = .liveness 0 :: rest) :
    Orderly W { c with ready := rest } :=
  { h with
    nodup := (List.nodup_cons.1 (hready ▸ h.nodup)).2
    ready := fun hk => h.ready (hready ▸ List.mem_cons_of_mem _ hk)
    confirmed := by
      intro t ht
      obtain ⟨hin, hnobody⟩ := h.confirmed ht
      rw [hready] at hin
      exact ⟨by simpa using hin, hnobody⟩ }

/-- A session is released. Who waits on it goes on waiting. -/
theorem release (h : c.Orderly W) (s : SessionId) : (c.setBoard (c.board.release s)).Orderly W :=
  { h with owned := h.owned.release }

theorem even (h : c.Orderly W) (hd : c.Even d) : d.Orderly W := by
  obtain ⟨board, heven, rfl⟩ := hd
  exact { h with
    opened := fun ht => Nat.lt_of_lt_of_eq (h.opened ht) heven.length.symm
    owned := h.owned.alike heven.toAlike
    confirmed := fun ht =>
      ⟨(h.confirmed ht).1, fun hs => (heven.waiters _).trans ((h.confirmed ht).2 hs)⟩
    waiters := by
      intro t s ht
      change t ∈ (board.session s).waiters at ht
      change (board.session s).waiters = [t] ∧ _
      rw [heven.waiters] at ht ⊢
      exact h.waiters ht }

/-- A thread begins to wait on a session that is not confirmed yet. -/
theorem wait (h : c.Orderly W) (hs : s < c.board.sessions.length)
    (hnobody : ∀ {u d}, ¬W u s d) (hnowhere : ∀ {r d}, ¬W t r d)
    (hwait : (c.board.wait s t).2 = false) (deadline : Nat) :
    ((c.setBoard (c.board.wait s t).1).setTimer deadline (.thread t)).Orderly fun u r d =>
      W u r d ∨ u = t ∧ r = s ∧ d = deadline := by
  have halike : c.board.Alike (c.board.wait s t).1 := Board.alike_wait
  have hempty : (c.board.session s).waiters = [] :=
    List.eq_nil_iff_forall_not_mem.2 fun u hu => hnobody (h.waiters hu).2.choose_spec
  have hconfirmed : (c.board.session s).confirmed = false := by simpa [Board.wait_eq] using hwait
  have hwaiters : ∀ r, ((c.board.wait s t).1.session r).waiters =
      if r = s then [t] else (c.board.session r).waiters := by
    intro r
    rw [Board.wait_eq, Board.session_set]
    by_cases hrs : r = s
    · simp [hrs, hs, Session.waiters_waited, hconfirmed, hempty]
    · simp [hrs]
  constructor
  case single =>
    rintro u r d r' d' (hd | ⟨rfl, rfl, rfl⟩) (hd' | ⟨hu, hr, -⟩)
    · exact h.single hd hd'
    · exact absurd (hu ▸ hd) hnowhere
    · exact absurd hd' hnowhere
    · exact hr
  case apart =>
    rintro u u' r d d' (hd | ⟨rfl, rfl, rfl⟩) (hd' | ⟨hu, hr, -⟩)
    · exact h.apart hd hd'
    · exact absurd (hr ▸ hd) hnobody
    · exact absurd hd' hnobody
    · exact hu
  case opened =>
    rintro u r d (hd | ⟨rfl, rfl, rfl⟩)
    · exact Nat.lt_of_lt_of_eq (h.opened hd) halike.length.symm
    · exact Nat.lt_of_lt_of_eq hs halike.length.symm
  case owned => exact h.owned.alike halike
  case nodup => exact h.nodup
  case ready =>
    intro k hk
    rcases h.ready hk with hk | ⟨u, r, d, hk, hd, hover⟩
    · exact .inl hk
    · exact .inr ⟨u, r, d, hk, .inl hd, hover⟩
  case confirmed =>
    intro u hu
    refine ⟨(h.confirmed hu).1, fun {r d} hr => ?_⟩
    change ((c.board.wait s t).1.session r).waiters = []
    -- Who is confirmed has waited before, so it is another thread than the one that begins to.
    obtain ⟨r', d', hd'⟩ : ∃ r' d', W u r' d' := by
      rcases h.ready (h.confirmed hu).1 with hk | ⟨u', r', d', hk, hd', -⟩
      · cases hk
      · cases hk
        exact ⟨r', d', hd'⟩
    rcases hr with hr | ⟨rfl, -, -⟩
    · rw [hwaiters, if_neg]
      · exact (h.confirmed hu).2 hr
      · rintro rfl
        exact hnobody hr
    · exact absurd hd' hnowhere
  case waiters =>
    intro u r hu
    change u ∈ ((c.board.wait s t).1.session r).waiters at hu
    change ((c.board.wait s t).1.session r).waiters = [u] ∧ _
    rw [hwaiters] at hu ⊢
    split at hu
    · next hrs =>
      obtain rfl := List.mem_singleton.1 hu
      exact ⟨if_pos hrs, deadline, .inr ⟨rfl, hrs, rfl⟩⟩
    · next hrs =>
      obtain ⟨hone, d, hd⟩ := h.waiters hu
      exact ⟨(if_neg hrs).trans hone, d, .inl hd⟩
  case timers =>
    intro k hk
    rcases List.mem_append.1 hk with hk | hk
    · rcases h.timers hk with hk | ⟨u, r, d, hk, hd, hle⟩
      · exact .inl hk
      · exact .inr ⟨u, r, d, hk, .inl hd, hle⟩
    · obtain rfl := List.mem_singleton.1 hk
      exact .inr ⟨t, s, deadline, rfl, .inr ⟨rfl, rfl, rfl⟩, Nat.le_refl _⟩

end Orderly

/-! ### What is in no order -/

/-- A thread whose turn it is, and whose session was confirmed for it, waits nowhere. -/
structure Released (t : ThreadId) (s : SessionId) (c : Lobby) : Prop where
  owned : c.board.Owned
  nobody : (c.board.session s).waiters = []
  nowhere : ∀ r, t ∉ (c.board.session r).waiters
  ready : c.ready.head? = some (.thread t)

theorem Orderly.releasedAt (h : c.Orderly W) {rest : List Task} {e : Nat}
    (hready : c.ready = .thread t :: rest) (ht : W t s e) (hc : t ∈ c.confirmed) :
    c.Released t s where
  owned := h.owned
  nobody := (h.confirmed hc).2 ht
  nowhere := by
    intro r hr
    obtain ⟨hone, d, hd⟩ := h.waiters hr
    obtain rfl := h.single ht hd
    rw [(h.confirmed hc).2 ht] at hone
    cases hone
  ready := by rw [hready]; rfl

theorem Released.notMem (h : c.Released t s) : t ∉ (c.board.receive c.criterion m).2 := by
  rw [h.owned.released_receive]
  intro ht
  obtain ⟨r, -, hhead⟩ := List.mem_filterMap.1 ht
  exact h.nowhere r (List.mem_of_mem_head? hhead)

theorem Released.inspect (h : c.Released t s) (m : Message) : (c.inspect m).Released t s where
  owned := h.owned.alike Board.alike_receive
  nobody := (Board.later_receive c.criterion m).waiters h.nobody
  nowhere := by
    intro r hr
    change t ∈ ((c.board.receive c.criterion m).1.session r).waiters at hr
    rw [h.owned.session_receive] at hr
    split at hr
    · rw [Session.waiters_confirm] at hr
      exact h.nowhere r (List.mem_of_mem_tail hr)
    · exact h.nowhere r hr
  ready := by
    obtain ⟨rest, hready⟩ := List.head?_eq_some_iff.1 h.ready
    have hnot : Task.thread t ∉ (c.board.receive c.criterion m).2.map Task.thread := by
      simpa using h.notMem
    simp only [Lobby.inspect, hready, enqueued_cons hnot, List.head?_cons]

/-- To dismiss a thread that waits nowhere, and to look at a message, are in no order. -/
theorem Released.dismiss_inspect (h : c.Released t s) (m : Message) :
    ((c.inspect m).dismiss t s).Even ((c.dismiss t s).inspect m) := by
  obtain ⟨rest, hready⟩ := List.head?_eq_some_iff.1 h.ready
  have hnot : Task.thread t ∉ (c.board.receive c.criterion m).2.map Task.thread := by
    simpa using h.notMem
  have hkept : (c.board.receive c.criterion m).2.filter (· ≠ t) =
      (c.board.receive c.criterion m).2 :=
    List.filter_eq_self.2 fun u hu => decide_eq_true fun hut => h.notMem (hut ▸ hu)
  have hbefore : c.board.giveUp s t = c.board := Board.giveUp_of_notMem (h.nowhere s)
  have hafter : (c.board.receive c.criterion m).1.giveUp s t = (c.board.receive c.criterion m).1 :=
    Board.giveUp_of_notMem ((h.inspect m).nowhere s)
  obtain ⟨heven, hreleased⟩ :
      ((c.board.receive c.criterion m).1.release s).Even
        ((c.board.release s).receive c.criterion m).1 ∧
      ((c.board.release s).receive c.criterion m).2 = (c.board.receive c.criterion m).2 :=
    h.owned.receive_release h.nobody
  refine ⟨((c.board.release s).receive c.criterion m).1, ?_, ?_⟩
  case refine_1 =>
    simp only [Lobby.dismiss, Lobby.inspect, hafter]
    exact heven
  case refine_2 =>
    simp only [Lobby.dismiss, Lobby.inspect, setBoard, hbefore, hreleased, hready, enqueued_cons hnot,
      List.tail_cons, List.filter_append, List.filter_reverse, hkept]

end Lobby

end Overlay
