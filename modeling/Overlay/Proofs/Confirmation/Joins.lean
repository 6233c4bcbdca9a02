import Mathlib.Data.Set.Card
import Overlay.Fabric.Command
import Overlay.Proofs.Traffic

/-!
# Joins and their sessions

Engines may share a board, and any number of joins may be under way at once, at the same engine or
at several, for the same identity or for several. A hall is a fabric together with all joins that
were ever attempted. A join is enrolled, which may be refused, opens a session, may wait on it, and
releases it however it ends: confirmed, in time or not, or dropped at any moment since it had the
session. Between any two of its steps others may come in, and whatever else happens in the fabric
that leaves sessions where they are (`Fabric.Spares`).

`sessions_follow_joins` says that no session outlives its join on a board, and that which sessions
count is told by nothing but the order in which they were opened and released.
-/

namespace Overlay

namespace Fabric

variable {f g h : Fabric} {d e : EngineId} {a : AgentId} {b c : BoardId} {m : Message}

/-! ## What leaves sessions alone -/

/-- The same sessions count on every board, and every engine keeps its board. -/
structure Spares (f g : Fabric) : Prop where
  boards : f.boards.length ≤ g.boards.length
  board : ∀ b, (f.board b).2.Alike (g.board b).2
  engines : f.engines.length ≤ g.engines.length
  engine : ∀ e, e < f.engines.length → (g.engine e).board = (f.engine e).board

namespace Spares

theorem refl (f : Fabric) : f.Spares f :=
  ⟨Nat.le_refl _, fun _ => .refl _, Nat.le_refl _, fun _ _ => rfl⟩

theorem trans (hfg : f.Spares g) (hgh : g.Spares h) : f.Spares h where
  boards := Nat.le_trans hfg.boards hgh.boards
  board := fun b => (hfg.board b).trans (hgh.board b)
  engines := Nat.le_trans hfg.engines hgh.engines
  engine := fun e he =>
    (hgh.engine e (Nat.lt_of_lt_of_le he hfg.engines)).trans (hfg.engine e he)

/-- Boards and engines are the same. -/
theorem of_eq (hboards : g.boards = f.boards) (hengines : g.engines = f.engines) : f.Spares g := by
  refine ⟨Nat.le_of_eq (by rw [hboards]), fun b => ?_, Nat.le_of_eq (by rw [hengines]), fun e _ => ?_⟩
  · rw [Fabric.board, Fabric.board, hboards]
    exact .refl _
  · rw [Fabric.engine, Fabric.engine, hengines]

/-- What becomes of an engine, if it keeps its board. -/
theorem setEngine {x : Engine} (hx : x.board = (f.engine e).board) : f.Spares (f.setEngine e x) := by
  refine ⟨Nat.le_refl _, fun b => .refl _, Nat.le_of_eq (length_setEngine x).symm, fun d hd => ?_⟩
  by_cases hde : d = e
  · subst hde
    rw [engine_setEngine_self x hd, hx]
  · rw [engine_setEngine_ne x hde]

theorem aside (h : f.Aside g) : f.Spares g where
  boards := Nat.le_of_eq h.boards.symm
  board := fun b => (h.board b).alike
  engines := Nat.le_of_eq (by rw [h.engines])
  engine := fun e _ => by rw [Fabric.engine, h.engines, Fabric.engine]

/-- Traffic leaves sessions alone, whatever the message. -/
theorem closed : Closed Spares fun _ _ => True where
  aside := aside
  trans := trans
  stable := fun _ _ => trivial
  carried := fun _ _ => trivial
  answer := fun _ _ _ => trivial
  note := fun _ _ => .of_eq rfl rfl
  queue := fun _ _ => setEngine rfl

theorem processing : Processing Spares fun _ _ => True where
  change := by
    intro f e m change now _ _ _
    exact setEngine (by cases change <;> rfl)
  enquiry := fun _ _ => trivial
  touch := fun _ => setEngine rfl

theorem receive : Keeps Spares (fun _ _ => True) Fabric.receive := closed.reception processing _

theorem send (e : EngineId) (m : Message) : f.Spares (f.send e m).1 :=
  closed.sendBy receive trivial e

theorem process (e : EngineId) (m : Message) : f.Spares (f.process e m) :=
  closed.processBy processing receive f e m trivial

theorem inject (b : BusId) (m : Message) : f.Spares (f.inject b m).1 :=
  closed.receiveAll receive fun _ _ => trivial

end Spares

/-! ## What becomes of a board -/

theorem board_setBoard (x : Board ThreadId) : ((f.setBoard c x).board b).2 =
    if b = c ∧ c < f.boards.length then x else (f.board b).2 := by
  by_cases hc : c < f.boards.length
  · by_cases hbc : b = c
    · simp [hbc, hc, board_setBoard_self]
    · simp [hbc, board_setBoard_ne]
  · simp [setBoard, hc, List.modify_eq_self (Nat.le_of_not_lt hc)]

theorem length_setBoard (x : Board ThreadId) : (f.setBoard c x).boards.length = f.boards.length :=
  List.length_modify _ _ _

theorem Spares.setBoard {x : Board ThreadId} (hx : (f.board c).2.Alike x) :
    f.Spares (f.setBoard c x) := by
  refine ⟨Nat.le_of_eq (length_setBoard x).symm, fun b => ?_, Nat.le_refl _, fun _ _ => rfl⟩
  rw [board_setBoard]
  split
  · next hb => exact hb.1 ▸ hx
  · exact .refl _

theorem Spares.beginWait (j : Join) (t : ThreadId) : f.Spares (f.beginWait j t).1 :=
  .setBoard Board.alike_wait

theorem Spares.setDirectory (D : Directory) : f.Spares (f.setDirectory e D) := .setEngine rfl

theorem Spares.setStanding (x : Standing) : f.Spares (f.setStanding a x) := .of_eq rfl rfl

/-- To be registered is nothing to any session. -/
theorem Spares.enroll (hg : f.enroll a e = .ok g) : f.Spares g := by
  unfold Fabric.enroll at hg
  simp only at hg
  split at hg
  · split at hg
    · obtain rfl := Except.ok.inj hg
      exact (setStanding _).trans (setDirectory _)
    · contradiction
  · contradiction

/-! ## Whose sessions count -/

/-- A board after some changes of which sessions count. Each session that does is in the hands of
somebody at an engine that has this board. -/
structure Manned (b : BoardId) (changes : List Board.Change) (f : Fabric)
    (holds : EngineId → SessionId → Prop) : Prop where
  board : b < f.boards.length
  follows : (f.board b).2.Follows changes
  held : ∀ {i s}, (f.board b).2.current.get? i = some s →
    ∃ e < f.engines.length, (f.engine e).board = b ∧ holds e s

namespace Manned

variable {changes : List Board.Change} {holds holds' : EngineId → SessionId → Prop} {i : Identity}
  {s t : SessionId} {u : ThreadId} {j : Join}

theorem of_empty (hb : b < f.boards.length) (hempty : (f.board b).2 = .empty) :
    f.Manned b [] holds :=
  ⟨hb, hempty ▸ .empty, by simp [hempty, Board.empty]⟩

/-- Whatever leaves sessions alone, while nobody who has one is lost sight of. -/
theorem spare (h : f.Manned b changes holds) (hspares : f.Spares g)
    (hholds : ∀ {e s}, holds e s → holds' e s) : g.Manned b changes holds' where
  board := Nat.lt_of_lt_of_le h.board hspares.boards
  follows := h.follows.alike (hspares.board b)
  held := by
    intro i s hs
    rw [(hspares.board b).current] at hs
    obtain ⟨e, he, hboard, hs⟩ := h.held hs
    exact ⟨e, Nat.lt_of_lt_of_le he hspares.engines, (hspares.engine e he).trans hboard, hholds hs⟩

/-- What becomes of the sessions that count when a session is opened. -/
theorem openSession (h : f.Manned b changes holds) (he : e < f.engines.length)
    (hnew : holds' e (f.openSession a e).2.session) (hholds : ∀ {e s}, holds e s → holds' e s) :
    (f.openSession a e).1.Manned b
      (changes ++ if (f.engine e).board = b then [.start (f.member a).agent.identity] else [])
      holds' where
  board := Nat.lt_of_lt_of_eq h.board (length_setBoard _).symm
  follows := by
    rw [Fabric.openSession, board_setBoard]
    by_cases hb : (f.engine e).board = b
    · subst hb
      simpa [h.board] using h.follows.start
    · simpa [hb, Ne.symm hb] using h.follows
  held := by
    intro i s hs
    rw [Fabric.openSession, board_setBoard] at hs
    split at hs
    · next hb =>
      by_cases hi : i = (f.member a).agent.identity
      · have hsession : (f.openSession a e).2.session = s := by
          simpa [Board.start, hi, Fabric.openSession] using hs
        exact ⟨e, he, hb.1.symm, hsession ▸ hnew⟩
      · obtain ⟨d, hd, hboard, hs⟩ := h.held (i := i) (s := s) (by simpa [Board.start, hi, hb.1] using hs)
        exact ⟨d, hd, hboard, hholds hs⟩
    · obtain ⟨d, hd, hboard, hs⟩ := h.held hs
      exact ⟨d, hd, hboard, hholds hs⟩

/-- A session that counts still after a release is not the one that was released. -/
theorem get?_releaseSession (h : f.Manned b changes holds) :
    ((f.releaseSession j u).board b).2.current.get? i = some t ↔
      (f.board b).2.current.get? i = some t ∧ ((f.engine j.engine).board = b → t ≠ j.session) := by
  rw [Fabric.releaseSession, board_setBoard]
  by_cases hb : (f.engine j.engine).board = b
  · subst hb
    rw [if_pos ⟨rfl, h.board⟩, (h.follows.alike Board.alike_giveUp).get?_release]
    simp only [Board.alike_giveUp.current, true_implies]
    split
    · next hi => simp [hi, eq_comm]
    · next hi =>
      refine ⟨fun ht => ⟨ht, ?_⟩, And.left⟩
      rintro rfl
      exact hi ht
  · simp [hb, Ne.symm hb]

/-- What becomes of the sessions that count when a session is released. -/
theorem releaseSession (h : f.Manned b changes holds)
    (hholds : ∀ {e s}, holds e s → (e = j.engine → s ≠ j.session) → holds' e s) :
    (f.releaseSession j u).Manned b
      (changes ++ if (f.engine j.engine).board = b then [.release j.session] else []) holds' where
  board := Nat.lt_of_lt_of_eq h.board (length_setBoard _).symm
  follows := by
    rw [Fabric.releaseSession, board_setBoard]
    by_cases hb : (f.engine j.engine).board = b
    · subst hb
      simpa [h.board] using (h.follows.alike Board.alike_giveUp).release
    · simpa [hb, Ne.symm hb] using h.follows
  held := by
    intro i t ht
    obtain ⟨ht, hother⟩ := h.get?_releaseSession.1 ht
    obtain ⟨e, he, hboard, hheld⟩ := h.held ht
    exact ⟨e, he, hboard, hholds hheld fun hej => hother (hej ▸ hboard)⟩

/-- How many agents have a session that counts. -/
theorem pending (h : f.Manned b changes holds) :
    (f.board b).2.pending = {i | ∃ s, Board.Counts changes s i}.ncard := by
  have hkeys : {i | ∃ s, Board.Counts changes s i} =
      ((f.board b).2.current.keys.toFinset : Set Identity) := by
    ext i
    simp [← h.follows.current, Register.keys, Register.mem_toList]
  have hcard : (f.board b).2.current.keys.toFinset.card = (f.board b).2.current.keys.length :=
    List.toFinset_card_of_nodup (f.board b).2.current.nodup
  rw [hkeys, Set.ncard_coe_finset, hcard]
  simp [Board.pending, Register.size, Register.keys]

/-- If nobody has a session there, none counts. -/
theorem pending_eq_zero (h : f.Manned b changes holds)
    (hnobody : ∀ e s, (f.engine e).board = b → ¬holds e s) : (f.board b).2.pending = 0 := by
  rw [Board.pending, Register.size, List.length_eq_zero_iff, List.eq_nil_iff_forall_not_mem]
  rintro ⟨i, s⟩ hs
  obtain ⟨e, -, hboard, hheld⟩ := h.held (Register.mem_toList.1 hs)
  exact hnobody e s hboard hheld

end Manned

end Fabric

/-! ## Halls -/

inductive Phase where
  /-- The agent is registered, and has no session yet. -/
  | enrolled
  | holding (session : SessionId)
  /-- It was refused, or its session is released. -/
  | over
deriving DecidableEq

/-- A join of an agent to the cloud of an engine. -/
structure Attempt where
  agent : AgentId
  engine : EngineId
  phase : Phase

/-- A fabric and all joins that were ever attempted, in their order. -/
structure Hall where
  fabric : Fabric
  attempts : List Attempt

namespace Hall

/-- What a step does to the sessions that count. -/
inductive Mark where
  | opened (board : BoardId) (agent : Identity)
  | released (board : BoardId) (session : SessionId)
  | none

def Mark.changes (b : BoardId) : Mark → List Board.Change
  | .opened c i => if c = b then [.start i] else []
  | .released c s => if c = b then [.release s] else []
  | .none => []

def changes (b : BoardId) (marks : List Mark) : List Board.Change :=
  marks.flatMap (Mark.changes b)

def boardOf (h : Hall) (e : EngineId) : BoardId :=
  (h.fabric.engine e).board

inductive Step : Hall → Mark → Hall → Prop
  | refuse {h : Hall} {a : AgentId} {e : EngineId} {refusal : Refusal}
      (he : e < h.fabric.engines.length) (hrefused : h.fabric.enroll a e = .error refusal) :
      Step h .none ⟨h.fabric, h.attempts ++ [⟨a, e, .over⟩]⟩
  | enroll {h : Hall} {a : AgentId} {e : EngineId} {f : Fabric}
      (he : e < h.fabric.engines.length) (henroll : h.fabric.enroll a e = .ok f) :
      Step h .none ⟨f, h.attempts ++ [⟨a, e, .enrolled⟩]⟩
  | openSession {h : Hall} {k : Nat} {a : AgentId} {e : EngineId}
      (hk : h.attempts[k]? = some ⟨a, e, .enrolled⟩) :
      Step h (.opened (h.boardOf e) (h.fabric.member a).agent.identity)
        ⟨(h.fabric.openSession a e).1,
          h.attempts.set k ⟨a, e, .holding (h.fabric.openSession a e).2.session⟩⟩
  | wait {h : Hall} {k : Nat} {a : AgentId} {e : EngineId} {s : SessionId}
      (hk : h.attempts[k]? = some ⟨a, e, .holding s⟩) (t : ThreadId) :
      Step h .none ⟨(h.fabric.beginWait ⟨a, e, s⟩ t).1, h.attempts⟩
  /-- The join is confirmed, out of time or dropped. -/
  | release {h : Hall} {k : Nat} {a : AgentId} {e : EngineId} {s : SessionId}
      (hk : h.attempts[k]? = some ⟨a, e, .holding s⟩) (t : ThreadId) :
      Step h (.released (h.boardOf e) s)
        ⟨h.fabric.releaseSession ⟨a, e, s⟩ t, h.attempts.set k ⟨a, e, .over⟩⟩
  | other {h : Hall} {f : Fabric} (hspares : h.fabric.Spares f) : Step h .none ⟨f, h.attempts⟩

inductive Run (h : Hall) : List Mark → Hall → Prop
  | nil : Run h [] h
  | snoc {h' h'' : Hall} {marks : List Mark} {mark : Mark} (hrun : Run h marks h')
      (hstep : Step h' mark h'') : Run h (marks ++ [mark]) h''

/-- No join is under way at an engine that has a board. -/
def AtRest (h : Hall) (b : BoardId) : Prop :=
  ∀ x ∈ h.attempts, h.boardOf x.engine = b → x.phase = .over

instance {h : Hall} {b : BoardId} : Decidable (h.AtRest b) :=
  inferInstanceAs (Decidable (∀ x ∈ h.attempts, h.boardOf x.engine = b → x.phase = .over))

variable {f g : Fabric} {h h' : Hall} {marks : List Mark} {mark : Mark} {b c : BoardId} {k : Nat}
  {xs : List Attempt} {x : Attempt}

/-! ## Runs -/

def Holds (h : Hall) (e : EngineId) (s : SessionId) : Prop :=
  ∃ a, ⟨a, e, .holding s⟩ ∈ h.attempts

/-- A join that has not got a certain session stays when one is replaced that has. -/
theorem mem_set {y : Attempt} (hx : x ∈ xs) (hk : xs[k]? = some y) (hne : x ≠ y) (z : Attempt) :
    x ∈ xs.set k z := by
  obtain ⟨n, hn⟩ := List.mem_iff_getElem?.1 hx
  have hnk : n ≠ k := by
    rintro rfl
    exact hne (Option.some.inj (hn.symm.trans hk))
  exact List.mem_iff_getElem?.2 ⟨n, by rw [List.getElem?_set_ne (Ne.symm hnk), hn]⟩

/-- Joins are made at engines that there are. -/
def Placed (h : Hall) : Prop :=
  ∀ x ∈ h.attempts, x.engine < h.fabric.engines.length

theorem Placed.step (hp : h.Placed) (hstep : Step h mark h') : h'.Placed := by
  have hspares : ∀ {f}, h.fabric.Spares f → ∀ {xs : List Attempt},
      (∀ x ∈ xs, x.engine < h.fabric.engines.length) → Placed ⟨f, xs⟩ :=
    fun hf _ hxs x hx => Nat.lt_of_lt_of_le (hxs x hx) hf.engines
  have happend : ∀ {y : Attempt}, y.engine < h.fabric.engines.length →
      ∀ x ∈ h.attempts ++ [y], x.engine < h.fabric.engines.length := by
    intro y hy x hx
    rcases List.mem_append.1 hx with hx | hx
    · exact hp x hx
    · exact List.mem_singleton.1 hx ▸ hy
  have hset : ∀ {k : Nat} {y z : Attempt}, h.attempts[k]? = some y → z.engine = y.engine →
      ∀ x ∈ h.attempts.set k z, x.engine < h.fabric.engines.length := by
    intro k y z hk hz x hx
    rcases List.mem_or_eq_of_mem_set hx with hx | rfl
    · exact hp x hx
    · exact hz ▸ hp y (List.mem_of_getElem? hk)
  cases hstep with
  | refuse he => exact hspares (.refl _) (happend he)
  | enroll he henroll => exact hspares (.enroll henroll) (happend he)
  | openSession hk => exact hset hk rfl
  | wait hk t => exact hspares (.beginWait _ t) hp
  | release hk t => exact hset hk rfl
  | other hf => exact hspares hf hp

theorem changes_concat : changes b (marks ++ [mark]) = changes b marks ++ mark.changes b := by
  simp [changes]

/-- Each session that counts is that of a join under way. -/
theorem manned_step (hm : h.fabric.Manned b (changes b marks) h.Holds) (hp : h.Placed)
    (hstep : Step h mark h') : h'.fabric.Manned b (changes b (marks ++ [mark])) h'.Holds := by
  rw [changes_concat]
  cases hstep with
  | refuse he =>
    rw [Mark.changes, List.append_nil]
    exact hm.spare (.refl _) fun ⟨a, ha⟩ => ⟨a, List.mem_append_left _ ha⟩
  | enroll he henroll =>
    rw [Mark.changes, List.append_nil]
    exact hm.spare (.enroll henroll) fun ⟨a, ha⟩ => ⟨a, List.mem_append_left _ ha⟩
  | @openSession k a e hk =>
    have hlt : k < h.attempts.length := (List.getElem?_eq_some_iff.1 hk).1
    refine hm.openSession (hp _ (List.mem_of_getElem? hk)) ⟨a, List.mem_set hlt _⟩ ?_
    rintro d s ⟨a', ha'⟩
    exact ⟨a', mem_set ha' hk (by simp) _⟩
  | wait hk t =>
    rw [Mark.changes, List.append_nil]
    exact hm.spare (.beginWait _ t) id
  | @release k a e s hk t =>
    refine hm.releaseSession (j := ⟨a, e, s⟩) ?_
    rintro d u ⟨a', ha'⟩ hother
    refine ⟨a', mem_set ha' hk ?_ _⟩
    simp only [ne_eq, Attempt.mk.injEq, Phase.holding.injEq, not_and]
    exact fun _ hd hu => hother hd hu
  | other hspares =>
    rw [Mark.changes, List.append_nil]
    exact hm.spare hspares id

theorem manned_run (hb : b < f.boards.length) (hempty : (f.board b).2 = .empty)
    (hrun : Run ⟨f, []⟩ marks h) :
    h.Placed ∧ h.fabric.Manned b (changes b marks) h.Holds := by
  induction hrun with
  | nil => exact ⟨by simp [Placed], .of_empty hb hempty⟩
  | snoc _ hstep ih => exact ⟨ih.1.step hstep, manned_step ih.2 ih.1 hstep⟩

/-- **No session is left behind by a join.** On a board that was empty those agents have a session
that counts whose latest session was not released yet; a release takes away no session but its own;
and no session counts when no join is under way. -/
theorem sessions_follow_joins (hb : b < f.boards.length) (hempty : (f.board b).2 = .empty)
    (hrun : Run ⟨f, []⟩ marks h) :
    (h.fabric.board b).2.pending = {i | ∃ s, Board.Counts (changes b marks) s i}.ncard ∧
    (∀ c s h', Step h (.released c s) h' → ∀ i t, (h.fabric.board b).2.current.get? i = some t →
      (c, s) ≠ (b, t) → (h'.fabric.board b).2.current.get? i = some t) ∧
    (h.AtRest b → (h.fabric.board b).2.pending = 0) := by
  have hm := (manned_run hb hempty hrun).2
  refine ⟨hm.pending, ?_, fun hrest => hm.pending_eq_zero ?_⟩
  · intro c s h' hstep i t hi hne
    cases hstep with
    | release hk u =>
      refine hm.get?_releaseSession.2 ⟨hi, ?_⟩
      rintro rfl rfl
      exact hne rfl
  · rintro e s hboard ⟨a, ha⟩
    exact absurd (hrest _ ha hboard) (by simp)

/-- Two engines that share a board, and two agents of one identity. -/
def annexes : Fabric :=
  let f := (Fabric.empty 0).addBoard .echo
  let f := (f.addEngine (.cloud default) .standard [] 0 0).addEngine (.cloud default) .standard [] 0 0
  (f.addAgent ⟨.agent default, .empty⟩).addAgent ⟨.agent default, .empty⟩

/-- The agents join at different engines, each for the same identity. -/
def crossing : List Mark :=
  [.none, .opened 0 (.agent default), .none, .opened 0 (.agent default)]

/-- The one who came first is dropped first, and then the other one. -/
theorem run_crossing : ∃ h₀ h₁ h₂, Run ⟨annexes, []⟩ crossing h₀ ∧
    Step h₀ (.released 0 0) h₁ ∧ Step h₁ (.released 0 1) h₂ ∧
    (h₀.fabric.board 0).2.current.get? (.agent default) = some 1 ∧ h₂.AtRest 0 := by
  have hfirst : Run ⟨annexes, []⟩ [.none, .opened 0 (.agent default)] _ :=
    (Run.nil.snoc (.enroll (a := 0) (e := 0) (by decide) rfl)).snoc
      (.openSession (k := 0) (a := 0) (e := 0) rfl)
  have hsecond : Run ⟨annexes, []⟩ crossing _ :=
    (hfirst.snoc (.enroll (a := 1) (e := 1) (by decide) rfl)).snoc
      (.openSession (k := 1) (a := 1) (e := 1) rfl)
  exact ⟨_, _, _, hsecond, .release (k := 0) (a := 0) (e := 0) (s := 0) rfl 0,
    .release (k := 1) (a := 1) (e := 1) (s := 1) rfl 1, rfl, by decide⟩

theorem sessions_follow_joins_crossing : ∃ h₀ h₁ h₂, Run ⟨annexes, []⟩ crossing h₀ ∧
    (h₀.fabric.board 0).2.pending = {i | ∃ s, Board.Counts (changes 0 crossing) s i}.ncard ∧
    Step h₀ (.released 0 0) h₁ ∧ (h₁.fabric.board 0).2.current.get? (.agent default) = some 1 ∧
    Step h₁ (.released 0 1) h₂ ∧ h₂.AtRest 0 ∧ (h₂.fabric.board 0).2.pending = 0 := by
  obtain ⟨h₀, h₁, h₂, hrun, hfirst, hsecond, hcurrent, hrest⟩ := run_crossing
  have hnow := sessions_follow_joins (b := 0) (by decide) rfl hrun
  have hend := sessions_follow_joins (b := 0) (by decide) rfl ((hrun.snoc hfirst).snoc hsecond)
  exact ⟨h₀, h₁, h₂, hrun, hnow.1, hfirst, hnow.2.1 _ _ _ hfirst _ _ hcurrent (by decide), hsecond,
    hrest, hend.2.2 hrest⟩

end Hall

end Overlay
