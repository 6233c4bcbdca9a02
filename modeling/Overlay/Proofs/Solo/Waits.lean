import Overlay.Fabric.Schedule
import Overlay.Proofs.Solo.Membership

/-!
# Waits at a lone engine

Threads that wait for joins stand in an order with the lobby: an agent that joins is joining for one
thread only and has no responder yet, a thread that is ready has been confirmed or is out of time,
and nobody waits on a session that has been confirmed for its thread (`Solo.Orderly`). Whatever a
lone engine does keeps this order.

A thread whose turn it is attaches its agent (`Solo.seat`). Messages that wait for the listeners
meanwhile may be delivered before that or after it, and it makes no difference if the agent has no
answer to them (`Solo.Harmless.settle_seat`).
-/

namespace Overlay

namespace Thread

/-- A thread that waits for a join. -/
def waiting (j : Join) (start deadline : Nat) : Thread :=
  ⟨none, [], some (.command (.join j start deadline none)), []⟩

/-- A thread whose only command is over. -/
def ended (outcome : Outcome) : Thread :=
  ⟨none, [], none, [.one outcome]⟩

end Thread

/-- A thread waits for a join until a deadline. -/
def Joins (ts : List Thread) (t : ThreadId) (j : Join) (deadline : Nat) : Prop :=
  ∃ start, ts[t]? = some (.waiting j start deadline)

/-- A thread waits on a session until a deadline. -/
def WaitsOn (ts : List Thread) (t : ThreadId) (s : SessionId) (deadline : Nat) : Prop :=
  ∃ j, Joins ts t j deadline ∧ j.session = s

namespace Solo

/-- A thread whose turn it is leaves the lobby, and its agent is attached. -/
def seat (v : Solo) (j : Join) (t : ThreadId) : Solo :=
  attach { v with lobby := v.lobby.dismiss t j.session } j.agent

/-- The threads wait as they should. -/
structure Orderly (ts : List Thread) (v : Solo) : Prop where
  registered : v.Registered
  lobby : v.lobby.Orderly (WaitsOn ts)
  joining : ∀ {t j d}, Joins ts t j d →
    j.engine = 0 ∧ (v.member j.agent).standing = .joining 0
  /-- Two threads do not wait for the same agent. -/
  alone : ∀ {t u j k d d'}, Joins ts t j d → Joins ts u k d' → k.agent = j.agent → u = t
  responders : ∀ {n a cloud}, (n, .responder a cloud) ∈ v.engine.fanout.listeners →
    (v.member a).standing = .joined 0 n

variable {v w : Solo} {ts : List Thread} {t : ThreadId} {j : Join} {d e : Nat} {a : AgentId}
  {rest : List Task} {m : Message} {l : Hearer} {first : Nat} {ds : Draws} {waiting : List Message}
  {outcome : Outcome}

/-! ## The order is kept -/

namespace Orderly

theorem stays (h : v.Orderly ts) (hs : v.Stays w) : w.Orderly ts where
  registered := h.registered.stays hs
  lobby := by
    obtain ⟨ms, hms⟩ := hs.lobby
    rw [hms]
    exact h.lobby.foldl_inspect ms
  joining := by
    intro t j d ht
    rw [member, hs.members]
    exact h.joining ht
  alone := h.alone
  responders := by
    intro n a cloud hl
    rw [member, hs.members]
    exact h.responders (hs.fanout ▸ hl)

end Orderly

/-- A thread that is over waits no longer, and all others wait as before. -/
theorem joins_set {u : ThreadId} {k : Join} (ht : Joins ts t j d) :
    Joins (ts.set t (.ended outcome)) u k e ↔ Joins ts u k e ∧ u ≠ t := by
  obtain ⟨start, ht⟩ := ht
  have hlt : t < ts.length := (List.getElem?_eq_some_iff.1 ht).1
  unfold Joins
  rw [List.getElem?_set]
  by_cases hut : t = u
  · subst hut
    simp [hlt, Thread.ended, Thread.waiting]
  · simp [hut, Ne.symm hut]

theorem waitsOn_set (ht : Joins ts t j d) :
    WaitsOn (ts.set t (.ended outcome)) = fun u s d => WaitsOn ts u s d ∧ u ≠ t := by
  funext u s e
  simp only [WaitsOn, joins_set ht, eq_iff_iff]
  grind

theorem member_attach_ne {c : AgentId} (hc : c ≠ a) : (v.attach a).member c = v.member c :=
  member_setStanding_ne hc

theorem lt_of_joining (h : (v.member a).standing ≠ .detached) : a < v.members.length := by
  by_contra hle
  have hnone : v.member a = default := by simp [member, List.getD, hle]
  rw [hnone] at h
  exact h rfl

namespace Orderly

/-- An agent is attached that no thread joins any longer. -/
theorem attach (h : v.Orderly ts) (ha : (v.member a).standing = .joining 0)
    (hnone : ∀ {u k d}, Joins ts u k d → k.agent ≠ a) : (v.attach a).Orderly ts where
  registered := h.registered.attach (h.registered a 0 (by rw [ha]; rfl)).2
  lobby := h.lobby
  joining := by
    intro u k d hu
    rw [member_attach_ne (hnone hu)]
    exact h.joining hu
  alone := h.alone
  responders := by
    intro n c cloud hl
    rcases List.mem_append.1 hl with hl | hl
    · have hc := h.responders hl
      have hne : c ≠ a := by
        rintro rfl
        rw [ha] at hc
        cases hc
      rw [member_attach_ne hne]
      exact hc
    · obtain ⟨rfl, hsame⟩ := Prod.mk.inj (List.mem_singleton.1 hl)
      obtain ⟨rfl, -⟩ := Hearer.responder.inj hsame
      have hlt : c < v.members.length := lt_of_joining (by rw [ha]; nofun)
      simp [Solo.attach, setStanding, setFanout, member, List.getD, hlt, Fanout.subscribe]

/-- A thread whose turn it is. -/
theorem seat (h : v.Orderly ts) (ht : Joins ts t j d) (hready : v.lobby.ready = .thread t :: rest) :
    (v.seat j t).Orderly (ts.set t (.ended outcome)) := by
  have hdismissed : Orderly (ts.set t (.ended outcome))
      { v with lobby := v.lobby.dismiss t j.session } := by
    constructor
    case registered => exact h.registered
    case lobby =>
      rw [waitsOn_set ht]
      exact h.lobby.dismiss hready ⟨j, ht, rfl⟩
    case joining => exact fun hu => h.joining ((joins_set ht).1 hu).1
    case alone => exact fun hu hu' => h.alone ((joins_set ht).1 hu).1 ((joins_set ht).1 hu').1
    case responders => exact h.responders
  refine hdismissed.attach (h.joining ht).2 fun hu heq => ?_
  obtain ⟨hu, hut⟩ := (joins_set ht).1 hu
  exact hut (h.alone ht hu heq)

/-- An agent that is attached leaves. -/
theorem leave (h : v.Orderly ts) (a : AgentId) : (v.leave a).Orderly ts := by
  have hregistered := h.registered.leave a
  unfold Solo.leave at hregistered ⊢
  cases hstands : (v.member a).standing with
  | detached => exact h
  | joining e => exact h
  | joined e s =>
    rw [hstands] at hregistered
    have hdetached : Orderly ts
        ((v.setStanding a .detached).setFanout (v.engine.fanout.unsubscribe s)) := by
      constructor
      case registered =>
        intro c e hc
        change ((v.setStanding a .detached).member c).standing.engine? = some e at hc
        change e = 0 ∧
          v.engine.directory.local? ((v.setStanding a .detached).member c).agent.identity = _
        by_cases hca : c = a
        · subst hca
          rcases standing_setStanding_self v c .detached with hs | hs <;> rw [hs] at hc <;> cases hc
        · rw [member_setStanding_ne hca] at hc ⊢
          exact h.registered c e hc
      case lobby => exact h.lobby
      case joining =>
        intro u k d hu
        have hne : k.agent ≠ a := by
          rintro rfl
          rw [(h.joining hu).2] at hstands
          cases hstands
        change _ ∧ ((v.setStanding a .detached).member k.agent).standing = _
        rw [member_setStanding_ne hne]
        exact h.joining hu
      case alone => exact h.alone
      case responders =>
        -- The responder that has ended is the only one of the agent that leaves.
        intro n c cloud hl
        obtain ⟨hl, hns⟩ := List.mem_filter.1 hl
        have hc := h.responders hl
        have hne : c ≠ a := by
          rintro rfl
          rw [hc] at hstands
          cases hstands
          simp at hns
        change ((v.setStanding a .detached).member c).standing = _
        rw [member_setStanding_ne hne]
        exact hc
    have hsaid : (v.depart a s).Orderly ts := hdetached.stays stays_say
    exact { hsaid with registered := hregistered }

end Orderly

/-! ## Joins that begin -/

theorem joins_append {x : Thread} {u : ThreadId} {k : Join} : Joins (ts ++ [x]) u k e ↔
    Joins ts u k e ∨ u = ts.length ∧ ∃ start, x = .waiting k start e := by
  unfold Joins
  rcases Nat.lt_trichotomy u ts.length with hu | rfl | hu
  · simp [List.getElem?_append_left hu, Nat.ne_of_lt hu]
  · simp
  · have hlast : ts.length + 1 ≤ u := hu
    have hbeyond : (ts ++ [x])[u]? = none := List.getElem?_eq_none (by simpa using hlast)
    simp [hbeyond, List.getElem?_eq_none (Nat.le_of_lt hu), Nat.ne_of_gt hu]

theorem not_joins_length {k : Join} : ¬Joins ts ts.length k e := by
  simp [Joins]

/-- A join has begun for which no thread waits. -/
structure Begun (ts : List Thread) (j : Join) (v : Solo) : Prop where
  orderly : v.Orderly ts
  engine : j.engine = 0
  joining : (v.member j.agent).standing = .joining 0
  agent : ∀ {u k d}, Joins ts u k d → k.agent ≠ j.agent
  opened : j.session < v.lobby.board.sessions.length
  session : ∀ {u k d}, Joins ts u k d → k.session ≠ j.session

/-- Set a timer for a task. -/
def setTimer (v : Solo) (time : Nat) (k : Task) : Solo :=
  { v with lobby := v.lobby.setTimer time k }

namespace Orderly

theorem ended (h : v.Orderly ts) (outcome : Outcome) : v.Orderly (ts ++ [.ended outcome]) := by
  have hsame : ∀ {u k e}, Joins (ts ++ [.ended outcome]) u k e ↔ Joins ts u k e := by
    intro u k e
    simp [joins_append, Thread.ended, Thread.waiting]
  constructor
  case registered => exact h.registered
  case lobby =>
    have hwaits : WaitsOn (ts ++ [.ended outcome]) = WaitsOn ts := by
      funext u s e
      simp only [WaitsOn, hsame]
    rw [hwaits]
    exact h.lobby
  case joining => exact fun hu => h.joining (hsame.1 hu)
  case alone => exact fun hu hu' => h.alone (hsame.1 hu) (hsame.1 hu')
  case responders => exact h.responders

theorem enroll (h : v.Orderly ts) (hw : v.enroll a = .ok w) : w.Orderly ts ∧
    ∀ {u k d}, Joins ts u k d → k.agent ≠ a := by
  have hregistered := h.registered.enroll hw
  obtain ⟨hstands, -, rfl⟩ := enroll_eq_ok hw
  have hagent : ∀ {u k d}, Joins ts u k d → k.agent ≠ a := by
    rintro u k d hu rfl
    rw [(h.joining hu).2] at hstands
    cases hstands
  refine ⟨?_, hagent⟩
  constructor
  case registered => exact hregistered
  case lobby => exact h.lobby
  case joining =>
    intro u k d hu
    change _ ∧ ((v.setStanding a (.joining 0)).member k.agent).standing = _
    rw [member_setStanding_ne (hagent hu)]
    exact h.joining hu
  case alone => exact h.alone
  case responders =>
    intro n c cloud hl
    have hc := h.responders hl
    have hne : c ≠ a := by
      rintro rfl
      rw [hc] at hstands
      cases hstands
    change ((v.setStanding a (.joining 0)).member c).standing = _
    rw [member_setStanding_ne hne]
    exact hc

theorem beginJoin (h : v.Orderly ts) (ha : a < v.members.length)
    (hw : v.beginJoin a = .ok (w, j)) : w.Begun ts j := by
  unfold Solo.beginJoin at hw
  split at hw
  · cases hw
  · next u hu =>
    obtain ⟨rfl, rfl⟩ := Prod.mk.inj (Except.ok.inj hw)
    obtain ⟨henrolled, hagent⟩ := h.enroll hu
    have hopened : (u.openSession a).Orderly ts :=
      { henrolled with lobby := henrolled.lobby.openSession _ }
    have hstays : (u.openSession a).Stays (((u.openSession a).announce a).ask a) :=
      stays_say.trans stays_say
    constructor
    case orderly => exact hopened.stays hstays
    case engine => rfl
    case joining =>
      obtain ⟨-, -, rfl⟩ := enroll_eq_ok hu
      rw [member, hstays.members]
      simp [openSession, setBoard, setDirectory, setStanding, List.getD, ha]
    case agent => exact hagent
    case opened =>
      obtain ⟨ms, hms⟩ := hstays.lobby
      have hlength : (u.openSession a).lobby.board.sessions.length =
          u.lobby.board.sessions.length + 1 := by
        simp [openSession, setBoard, Lobby.setBoard, Board.start]
      rw [hms, (Lobby.later_foldl_inspect ms).length, hlength]
      exact Nat.lt_succ_self _
    case session =>
      intro t k d hk
      exact Nat.ne_of_lt (henrolled.lobby.opened ⟨k, hk, rfl⟩)

end Orderly

namespace Begun

/-- A join that does not have to wait is over. -/
theorem finishJoin (h : w.Begun ts j) (t : ThreadId) :
    ((w.beginWait j.session t).finishJoin j t).Orderly ts := by
  have hnobody : (w.lobby.board.session j.session).waiters = [] := by
    refine List.eq_nil_iff_forall_not_mem.2 fun u hu => ?_
    obtain ⟨-, d, k, hk, hs⟩ := h.orderly.lobby.waiters hu
    exact h.session hk hs
  have hreleased : Orderly ts ((w.beginWait j.session t).setBoard
      (((w.lobby.board.wait j.session t).1.giveUp j.session t).release j.session)) :=
    { h.orderly with
      lobby := (h.orderly.lobby.release j.session).even
        ⟨_, h.orderly.lobby.owned.release_wait hnobody, rfl⟩ }
  exact hreleased.attach h.joining h.agent

/-- A join that has to wait does so. -/
theorem wait (h : w.Begun ts j) (hwait : (w.lobby.board.wait j.session ts.length).2 = false)
    (start deadline : Nat) :
    ((w.beginWait j.session ts.length).setTimer deadline (.thread ts.length)).Orderly
      (ts ++ [.waiting j start deadline]) := by
  have hjoins : ∀ {u k e}, Joins (ts ++ [.waiting j start deadline]) u k e ↔
      Joins ts u k e ∨ u = ts.length ∧ k = j ∧ e = deadline := by
    intro u k e
    have hsame : (∃ start', Thread.waiting j start deadline = .waiting k start' e) ↔
        k = j ∧ e = deadline := by
      simp [Thread.waiting, eq_comm]
    rw [joins_append, hsame]
  have hwaits : WaitsOn (ts ++ [.waiting j start deadline]) = fun u r d =>
      WaitsOn ts u r d ∨ u = ts.length ∧ r = j.session ∧ d = deadline := by
    funext u r d
    simp only [WaitsOn, hjoins]
    grind
  constructor
  case registered => exact h.orderly.registered
  case lobby =>
    rw [hwaits]
    refine h.orderly.lobby.wait h.opened ?_ ?_ hwait deadline
    · rintro u d ⟨k, hk, hs⟩
      exact h.session hk hs
    · rintro r d ⟨k, hk, -⟩
      exact not_joins_length hk
  case joining =>
    intro u k e hu
    rcases hjoins.1 hu with hu | ⟨-, rfl, -⟩
    · exact h.orderly.joining hu
    · exact ⟨h.engine, h.joining⟩
  case alone =>
    intro u u' k k' e e' hu hu' hagent
    rcases hjoins.1 hu with hold | ⟨rfl, rfl, -⟩ <;>
      rcases hjoins.1 hu' with hold' | ⟨rfl, rfl, -⟩
    · exact h.orderly.alone hold hold' hagent
    · exact absurd hagent.symm (h.agent hold)
    · exact absurd hagent (h.agent hold')
    · rfl
  case responders => exact h.orderly.responders

end Begun

/-- **A new thread begins a join.** Either the join is over at once, or the thread waits for it. -/
theorem Orderly.startJoin (h : v.Orderly ts) (ha : a < v.members.length) :
    (∃ outcome, (v.startJoin ts.length a).2 = .over outcome ∧
      (v.startJoin ts.length a).1.Orderly (ts ++ [.ended outcome])) ∨
    ∃ j start deadline,
      (v.startJoin ts.length a).2 = .paused (.join j start deadline none) ∧
      ((v.startJoin ts.length a).1.setTimer deadline (.thread ts.length)).Orderly
        (ts ++ [.waiting j start deadline]) := by
  unfold Solo.startJoin
  split
  · exact .inl ⟨_, rfl, h.ended _⟩
  next w j hw =>
  have hbegun := h.beginJoin ha hw
  have hdone := hbegun.finishJoin ts.length
  split
  · exact .inl ⟨_, rfl, hdone.ended _⟩
  next hwait =>
  have hunconfirmed :
      ¬(w.beginWait j.session ts.length).lobby.confirmed.contains ts.length = true := by
    intro hc
    have hc : ts.length ∈ w.lobby.confirmed := List.contains_iff_mem.1 hc
    rcases hbegun.orderly.lobby.ready (hbegun.orderly.lobby.confirmed hc).1 with
      hk | ⟨u, s, d, hk, ⟨k, hu, -⟩, -⟩
    · cases hk
    · cases hk
      exact not_joins_length hu
  unfold Solo.resume
  rw [if_neg hunconfirmed]
  split
  · exact .inl ⟨_, rfl, hdone.ended _⟩
  · exact .inr ⟨_, _, _, rfl, hbegun.wait (Bool.eq_false_iff.2 hwait) _ _⟩

end Solo

end Overlay
