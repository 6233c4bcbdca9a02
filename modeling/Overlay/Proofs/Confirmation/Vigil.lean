import Mathlib.Algebra.Order.BigOperators.Group.List
import Mathlib.Algebra.Order.Group.Nat
import Overlay.Confirmation.Vigil
import Overlay.Proofs.Confirmation.Watch

/-!
# Vigils are watched

A vigil computes at once what becomes of waits that begin together. It is one course of the watch:
the waits begin, time passes, messages come in when it is their time, and when the time is over all
waits notice that which still go on (`Vigil.exists_course`). So all that is told of a watch holds of
vigils too.
-/

namespace Overlay

namespace Watch

def Event.ofChange : Board.Change → Event
  | .start agent => .start agent
  | .release s => .release s

theorem Event.change?_ofChange (c : Board.Change) : (Event.ofChange c).change? = some c := by
  cases c <;> rfl

/-- From one moment to another time passes, messages come in at times, and waits notice that their
time is over. -/
inductive Course (criterion : Criterion) (u : Watch) : List (Nat × Message) → Watch → Prop where
  | refl : Course criterion u [] u
  | tick {l v w} : Course criterion u l v → step? criterion v .tick = some w →
      Course criterion u l w
  | expire {l v w} (k : Nat) : Course criterion u l v → step? criterion v (.expire k) = some w →
      Course criterion u l w
  | receive {l v w} (m : Message) : Course criterion u l v →
      step? criterion v (.receive m) = some w → Course criterion u (l ++ [(v.now, m)]) w

variable {criterion : Criterion} {u v w : Watch} {l l' : List (Nat × Message)}

theorem Course.trans (h : Course criterion u l v) (h' : Course criterion v l' w) :
    Course criterion u (l ++ l') w := by
  induction h' with
  | refl => simpa using h
  | tick _ hstep ih => exact .tick ih hstep
  | expire k _ hstep ih => exact .expire k ih hstep
  | receive m _ hstep ih => exact List.append_assoc .. ▸ .receive m ih hstep

theorem exists_run_step {events : List Event} {x : Event}
    (hrun : ∃ more, run? criterion (events ++ more) = some v)
    (hstep : step? criterion v x = some w) :
    ∃ more, run? criterion (events ++ more) = some w := by
  obtain ⟨more, hmore⟩ := hrun
  refine ⟨more ++ [x], ?_⟩
  rw [← List.append_assoc, run?_concat, hmore]
  exact hstep

/-- A course is a history that goes on. -/
theorem Course.exists_run {events : List Event} (h : Course criterion u l w)
    (hrun : run? criterion events = some u) :
    ∃ more, run? criterion (events ++ more) = some w := by
  induction h with
  | refl => exact ⟨[], by simpa using hrun⟩
  | tick _ hstep ih => exact exists_run_step ih hstep
  | expire k _ hstep ih => exact exists_run_step ih hstep
  | receive m _ hstep ih => exact exists_run_step ih hstep

/-- A watch on a board of which so much has been changed. -/
def Stands (changes : List Board.Change) (w : Watch) : Prop :=
  ∃ events, Kept events w ∧ events.filterMap Event.change? = changes

namespace Stands

variable {changes : List Board.Change} {x : Event}

/-- A board on which nobody waits can be watched. -/
theorem of_idle {b : Board Nat} (hb : b.Follows changes) (hidle : ∀ s, (b.session s).waiters = []) :
    Stands changes ⟨b, 0, []⟩ := by
  have hchanges : (changes.map Event.ofChange).filterMap Event.change? = changes := by
    rw [List.filterMap_map]
    exact (List.filterMap_congr fun c _ => Event.change?_ofChange c).trans List.filterMap_some
  exact ⟨_, ⟨hchanges.symm ▸ hb, hidle, fun _ _ => rfl, by simp⟩, hchanges⟩

theorem step (h : Stands changes v) (hx : x.change? = none) (hstep : step? criterion v x = some w) :
    Stands changes w := by
  obtain ⟨events, hkept, rfl⟩ := h
  exact ⟨_, hkept.step hstep, by simp [hx]⟩

theorem foldlM {more : List Event} (h : Stands changes u) (hmore : ∀ x ∈ more, x.change? = none)
    (hrun : more.foldlM (step? criterion) u = some w) : Stands changes w := by
  induction more generalizing u with
  | nil => exact Option.some.inj hrun ▸ h
  | cons x more ih =>
    obtain ⟨hx, hmore⟩ := List.forall_mem_cons.1 hmore
    obtain ⟨v, hstep, hrest⟩ := Option.bind_eq_some_iff.1 (by simpa [List.foldlM_cons] using hrun)
    exact ih (h.step hx hstep) hmore hrest

theorem course (h : Stands changes u) (hcourse : Course criterion u l w) : Stands changes w := by
  induction hcourse with
  | refl => exact h
  | tick _ hstep ih => exact ih.step rfl hstep
  | expire k _ hstep ih => exact ih.step rfl hstep
  | receive m _ hstep ih => exact ih.step rfl hstep

end Stands

end Watch

namespace Vigil

open Watch

/-- The watch on which the waits of a vigil stand. -/
def watch (v : Vigil) (sessions : List SessionId) (timeout now : Nat) : Watch :=
  ⟨v.board, now, (sessions.zip v.ends).map fun x => ⟨x.1, timeout, x.2⟩⟩

def Over (v : Vigil) : Prop :=
  ∀ e ∈ v.ends, e ≠ none

/-- A wait goes on no longer than its time. -/
def lapse (timeout : Nat) (v : Vigil) (x : SessionId × Nat) : Vigil :=
  ⟨v.board.giveUp x.1 x.2, v.ends.modify x.2 fun e => some (e.getD (false, timeout))⟩

variable {criterion : Criterion} {v : Vigil} {sessions : List SessionId} {s : SessionId}
  {m : Message} {timeout now k : Nat} {changes : List Board.Change}

/-! ## The waits of a vigil -/

@[simp] theorem board_watch : (v.watch sessions timeout now).board = v.board := rfl

@[simp] theorem now_watch : (v.watch sessions timeout now).now = now := rfl

theorem length_stays (h : v.ends.length = sessions.length) :
    (v.watch sessions timeout now).stays.length = v.ends.length := by
  simp [watch, h]

theorem map_ended_stays (h : v.ends.length = sessions.length) :
    (v.watch sessions timeout now).stays.map Stay.ended = v.ends := by
  rw [watch, List.map_map]
  exact List.map_snd_zip (Nat.le_of_eq h)

theorem getElem?_stays : (v.watch sessions timeout now).stays[k]? =
    sessions[k]?.bind fun s => v.ends[k]?.map (⟨s, timeout, ·⟩) := by
  simp only [watch, List.getElem?_map, List.zip, List.getElem?_zipWith]
  cases sessions[k]? <;> cases v.ends[k]? <;> rfl

/-- A list is modified in several places, in some perhaps more than once. -/
theorem getElem?_foldl_modify {α : Type} (f : α → α) (hf : ∀ a, f (f a) = f a) (ks : List Nat)
    (l : List α) : (ks.foldl (fun l k => l.modify k f) l)[k]? =
      l[k]?.map fun a => if k ∈ ks then f a else a := by
  induction ks generalizing l with
  | nil => simp
  | cons j ks ih =>
    rw [List.foldl_cons, ih, List.getElem?_modify]
    cases l[k]? with
    | none => simp
    | some a =>
      by_cases hj : j = k
      · by_cases hk : k ∈ ks <;> simp [hj, hk, hf]
      · simp [hj, Ne.symm hj]

/-! ## What happens to them -/

theorem step?_wait (h : v.ends.length = sessions.length) (hs : s < v.board.sessions.length) :
    step? criterion (v.watch sessions timeout 0) (.wait s (timeout * nanosPerTick)) =
      some ((v.begin s).watch (sessions ++ [s]) timeout 0) := by
  have htime : timerTime 0 (timeout * nanosPerTick) = timeout := by
    simp only [timerTime, firingTime, nanosPerTick]
    omega
  rw [Watch.step?_wait]
  refine ⟨hs, ?_⟩
  simp only [begin, board_watch, now_watch, length_stays h, htime, Board.wait_eq]
  simp only [watch, List.zip_append h.symm, List.map_append]
  rfl

theorem ends_receive {a : Nat × Message} : (v.receive criterion a).ends[k]? =
    v.ends[k]?.map fun e =>
      if k ∈ (v.board.receive criterion a.2).2 then some (true, a.1) else e := by
  simp only [receive, List.set_eq_modify]
  exact getElem?_foldl_modify (fun _ => some (true, a.1)) (fun _ => rfl) _ _

theorem step?_receive :
    step? criterion (v.watch sessions timeout now) (.receive m) =
      some ((v.receive criterion (now, m)).watch sessions timeout now) := by
  have hstays : (v.watch sessions timeout now).conclude (v.board.receive criterion m).2 true =
      ((v.receive criterion (now, m)).watch sessions timeout now).stays := by
    refine List.ext_getElem? fun k => ?_
    rw [getElem?_conclude, getElem?_stays, getElem?_stays, ends_receive]
    cases sessions[k]? <;> cases v.ends[k]? <;> simp
    split <;> rfl
  rw [Watch.step?_receive, board_watch, hstays]
  rfl

theorem Over.receive {a : Nat × Message} (h : v.Over) : (v.receive criterion a).Over := by
  intro e he
  obtain ⟨k, hk⟩ := List.mem_iff_getElem?.1 he
  obtain ⟨d, hd, rfl⟩ := Option.map_eq_some_iff.1 (ends_receive ▸ hk)
  split
  · exact Option.some_ne_none _
  · exact h d (List.mem_of_getElem? hd)

/-- Time passes until some wait is over, or for ever if none goes on. -/
theorem course_ticks {u : Nat} (hu : now ≤ u) (h : u ≤ timeout ∨ v.Over) :
    Course criterion (v.watch sessions timeout now) [] (v.watch sessions timeout u) := by
  obtain ⟨n, rfl⟩ := Nat.exists_eq_add_of_le hu
  clear hu
  induction n with
  | zero => exact .refl
  | succ n ih =>
    have hdue : (v.watch sessions timeout (now + n)).due = [] := by
      refine List.eq_nil_iff_forall_not_mem.2 fun k hk => ?_
      obtain ⟨y, hy, hlate⟩ := mem_places.1 hk
      obtain ⟨s, e, hs, he, rfl⟩ : ∃ s e, sessions[k]? = some s ∧ v.ends[k]? = some e ∧
          ⟨s, timeout, e⟩ = y := by
        simpa [getElem?_stays, Option.bind_eq_some_iff] using hy
      obtain ⟨hended, hlate⟩ := Bool.and_eq_true_iff.1 hlate
      have hlate : timeout ≤ now + n := of_decide_eq_true hlate
      rcases h with h | h
      · omega
      · exact h e (List.mem_of_getElem? he) (Option.isNone_iff_eq_none.1 hended)
    exact .tick (ih (h.imp_left Nat.le_of_succ_le)) (step?_tick.2 ⟨hdue, rfl⟩)

/-- Messages come in, each when it is its time. -/
theorem course_foldl {l : List (Nat × Message)} {u : Nat} (hl : l.Pairwise (·.1 ≤ ·.1))
    (hfirst : ∀ a ∈ l, now ≤ a.1) (hlast : ∀ a ∈ l, a.1 ≤ u) (hu : now ≤ u)
    (h : u ≤ timeout ∨ v.Over) :
    Course criterion (v.watch sessions timeout now) l
      ((l.foldl (receive criterion) v).watch sessions timeout u) := by
  induction l generalizing v now with
  | nil => exact course_ticks hu h
  | cons a l ih =>
    obtain ⟨hnow, -⟩ := List.forall_mem_cons.1 hfirst
    obtain ⟨hau, hlast⟩ := List.forall_mem_cons.1 hlast
    obtain ⟨hal, hl⟩ := List.pairwise_cons.1 hl
    have hticks : Course criterion (v.watch sessions timeout now) []
        (v.watch sessions timeout a.1) :=
      course_ticks hnow (h.imp_left (Nat.le_trans hau))
    have hover : u ≤ timeout ∨ (v.receive criterion a).Over := h.imp_right Over.receive
    have hrest := ih hl hal hlast hau hover
    exact (Course.receive a.2 hticks step?_receive).trans hrest

/-- A wait that goes on when the time is over notices that; one that does not has left already. -/
theorem course_lapse (criterion : Criterion)
    (hstands : (v.watch sessions timeout timeout).Stands changes)
    (hlen : v.ends.length = sessions.length) (hs : sessions[k]? = some s) :
    Course criterion (v.watch sessions timeout timeout) []
      ((v.lapse timeout (s, k)).watch sessions timeout timeout) := by
  obtain ⟨events, hkept, -⟩ := hstands
  have hk : k < v.ends.length := hlen ▸ (List.getElem?_eq_some_iff.1 hs).1
  obtain ⟨e, he⟩ : ∃ e, v.ends[k]? = some e := ⟨_, List.getElem?_eq_getElem hk⟩
  have hstay : (v.watch sessions timeout timeout).stays[k]? = some ⟨s, timeout, e⟩ := by
    simp [getElem?_stays, hs, he]
  cases e with
  | none =>
    have hstays : (v.watch sessions timeout timeout).conclude [k] false =
        ((v.lapse timeout (s, k)).watch sessions timeout timeout).stays := by
      refine List.ext_getElem? fun j => ?_
      rw [getElem?_conclude, getElem?_stays, getElem?_stays, lapse, List.getElem?_modify]
      by_cases hjk : j = k
      · subst hjk
        simp [hs, he]
      · simp [hjk, Ne.symm hjk]
    refine .expire k .refl (step?_expire.2 ⟨_, hstay, rfl, Nat.le_refl _, ?_⟩)
    rw [hstays]
    rfl
  | some e =>
    have hgone : k ∉ (v.board.session s).waiters := by
      rw [← board_watch, hkept.waiters]
      intro hk
      have hnone := (of_mem_pending hstay hk).2
      contradiction
    have hsame : v.lapse timeout (s, k) = v := by
      have hends : (v.ends.modify k fun e => some (e.getD (false, timeout))) = v.ends := by
        refine List.ext_getElem? fun j => ?_
        rw [List.getElem?_modify]
        by_cases hjk : k = j
        · subst hjk
          simp [he]
        · simp [hjk]
      rw [lapse, Board.giveUp_of_notMem hgone, hends]
    rw [hsame]
    exact .refl

theorem length_lapse {x : SessionId × Nat} : (v.lapse timeout x).ends.length = v.ends.length := by
  simp [lapse]

theorem course_expiring (criterion : Criterion) {l : List (SessionId × Nat)}
    (hl : ∀ x ∈ l, sessions[x.2]? = some x.1)
    (hstands : (v.watch sessions timeout timeout).Stands changes)
    (hlen : v.ends.length = sessions.length) :
    Course criterion (v.watch sessions timeout timeout) []
      ((l.foldl (lapse timeout) v).watch sessions timeout timeout) := by
  induction l generalizing v with
  | nil => exact .refl
  | cons x l ih =>
    obtain ⟨hx, hl⟩ := List.forall_mem_cons.1 hl
    have hfirst := course_lapse criterion hstands hlen hx
    exact hfirst.trans (ih hl (hstands.course hfirst) (length_lapse.trans hlen))

/-- When the time is over, one wait after the other notices. -/
theorem expire_eq (hlen : v.ends.length = sessions.length) :
    v.expire sessions timeout = sessions.zipIdx.foldl (lapse timeout) v := by
  have hboard : (sessions.zipIdx.foldl (lapse timeout) v).board =
      sessions.zipIdx.foldl (fun board x => board.giveUp x.1 x.2) v.board := by
    refine (List.foldl_hom Vigil.board ?_).symm
    exact fun _ _ => rfl
  have hplaces : (sessions.zipIdx.foldl (lapse timeout) v).ends =
      (sessions.zipIdx.map Prod.snd).foldl
        (fun ends k => ends.modify k fun e => some (e.getD (false, timeout))) v.ends := by
    rw [List.foldl_map]
    refine (List.foldl_hom Vigil.ends ?_).symm
    exact fun _ _ => rfl
  have hends : (sessions.zipIdx.foldl (lapse timeout) v).ends =
      v.ends.map fun e => some (e.getD (false, timeout)) := by
    refine List.ext_getElem? fun k => ?_
    rw [hplaces, getElem?_foldl_modify (fun e => some (e.getD (false, timeout))) fun _ => rfl,
      List.getElem?_map]
    refine Option.map_congr fun e he => if_pos ?_
    simpa [← hlen] using (List.getElem?_eq_some_iff.1 he).1
  rw [expire, ← hboard, ← hends]

/-! ## Vigils -/

theorem length_foldl_begin :
    (sessions.foldl begin v).ends.length = v.ends.length + sessions.length := by
  induction sessions generalizing v with
  | nil => rfl
  | cons s sessions ih =>
    rw [List.foldl_cons, ih]
    simp only [begin, List.length_append, List.length_cons, List.length_nil]
    omega

theorem length_receive {a : Nat × Message} :
    (v.receive criterion a).ends.length = v.ends.length := by
  have hnone : ∀ k : Nat, (v.receive criterion a).ends[k]? = none ↔ v.ends[k]? = none := by
    intro k
    rw [ends_receive, Option.map_eq_none_iff]
  simp only [List.getElem?_eq_none_iff] at hnone
  exact Nat.le_antisymm ((hnone _).2 (Nat.le_refl _)) ((hnone _).1 (Nat.le_refl _))

theorem length_foldl_receive {l : List (Nat × Message)} :
    (l.foldl (receive criterion) v).ends.length = v.ends.length := by
  induction l generalizing v with
  | nil => rfl
  | cons a l ih => exact ih.trans length_receive

theorem Over.foldl {l : List (Nat × Message)} (h : v.Over) :
    (l.foldl (Vigil.receive criterion) v).Over := by
  induction l generalizing v with
  | nil => exact h
  | cons a l ih => exact ih h.receive

theorem foldlM_begin {done : List SessionId} (hlen : v.ends.length = done.length)
    (hs : ∀ s ∈ sessions, s < v.board.sessions.length) :
    (sessions.map (.wait · (timeout * nanosPerTick))).foldlM (step? criterion)
        (v.watch done timeout 0) =
      some ((sessions.foldl begin v).watch (done ++ sessions) timeout 0) := by
  induction sessions generalizing v done with
  | nil => simp
  | cons s sessions ih =>
    obtain ⟨hfirst, hs⟩ := List.forall_mem_cons.1 hs
    have hlen' : (v.begin s).ends.length = (done ++ [s]).length := by simp [begin, hlen]
    have hlength : (v.begin s).board.sessions.length = v.board.sessions.length :=
      Board.alike_wait.length
    rw [List.map_cons, List.foldlM_cons, step?_wait hlen hfirst]
    simpa using ih hlen' (hlength ▸ hs)

/-- What comes behind the time is late. -/
theorem le_of_mem_dropWhile {a : Nat × Message} {l : List (Nat × Message)}
    (hl : l.Pairwise (·.1 ≤ ·.1)) (ha : a ∈ l.dropWhile (·.1 < timeout)) : timeout ≤ a.1 := by
  induction l with
  | nil => contradiction
  | cons b l ih =>
    obtain ⟨hb, hl⟩ := List.pairwise_cons.1 hl
    rw [List.dropWhile_cons] at ha
    split at ha
    · exact ih hl ha
    · next hlate =>
      have hlate : timeout ≤ b.1 := by simpa using hlate
      rcases List.mem_cons.1 ha with rfl | ha
      · exact hlate
      · exact Nat.le_trans hlate (hb a ha)

/-- When the time is over, no wait goes on. -/
theorem over_expire : (v.expire sessions timeout).Over := by
  simp [Over, expire]

/-- Messages come in until the time is over. -/
theorem course_expire (criterion : Criterion) {l : List (Nat × Message)}
    (hl : l.Pairwise (·.1 ≤ ·.1)) (hfirst : ∀ a ∈ l, now ≤ a.1) (hlast : ∀ a ∈ l, a.1 ≤ timeout)
    (hnow : now ≤ timeout)
    (hstands : (v.watch sessions timeout now).Stands changes)
    (hlen : v.ends.length = sessions.length) :
    Course criterion (v.watch sessions timeout now) l
      (((l.foldl (receive criterion) v).expire sessions timeout).watch sessions timeout
        timeout) := by
  have hcome : Course criterion (v.watch sessions timeout now) l
      ((l.foldl (receive criterion) v).watch sessions timeout timeout) :=
    course_foldl hl hfirst hlast hnow (.inl (Nat.le_refl _))
  have hlen' : (l.foldl (receive criterion) v).ends.length = sessions.length :=
    length_foldl_receive.trans hlen
  have hexpire := course_expiring criterion
    (fun x hx => List.mem_zipIdx_iff_getElem?.1 hx) (hstands.course hcome) hlen'
  rw [← expire_eq hlen'] at hexpire
  simpa using hcome.trans hexpire

/-- Messages come in when no wait goes on any longer. -/
theorem Over.exists_course (criterion : Criterion) {l : List (Nat × Message)} (h : v.Over)
    (hl : l.Pairwise (·.1 ≤ ·.1)) (hfirst : ∀ a ∈ l, now ≤ a.1) :
    ∃ u, Course criterion (v.watch sessions timeout now) l
      ((l.foldl (Vigil.receive criterion) v).watch sessions timeout u) := by
  refine ⟨now + (l.map Prod.fst).sum, course_foldl hl hfirst ?_ (Nat.le_add_right _ _) (.inr h)⟩
  intro a ha
  exact Nat.le_add_left_of_le (List.le_sum_of_mem (List.mem_map_of_mem ha))

theorem Over.map_getD (h : v.Over) :
    (v.ends.map fun e => e.getD (false, timeout)).map some = v.ends := by
  have hsame : ∀ e ∈ v.ends, (some ∘ fun e => e.getD (false, timeout)) e = id e := by
    intro e he
    obtain ⟨x, rfl⟩ := Option.ne_none_iff_exists'.1 (h e he)
    rfl
  rw [List.map_map, List.map_congr_left hsame, List.map_id]

/-- **A vigil is a course of the watch.** On a board on which nobody waits the waits begin, and then
comes what has been announced, in the order of the times. How the waits end and what the board is
like in the end, the vigil says. -/
theorem exists_course (criterion : Criterion) {b : Board Nat} (hb : b.Follows changes)
    (hidle : ∀ s, (b.session s).waiters = []) (hs : ∀ s ∈ sessions, s < b.sessions.length)
    (timeout : Nat) (arrivals : List (Nat × Message)) : ∃ u w,
      (sessions.map (.wait · (timeout * nanosPerTick))).foldlM (step? criterion) ⟨b, 0, []⟩ =
        some u ∧
      Course criterion u (inTimeOrder arrivals) w ∧ w.Stands changes ∧
      w.board = (run b criterion sessions timeout arrivals).1 ∧
      w.stays.map Stay.ended = (run b criterion sessions timeout arrivals).2.map some := by
  have hordered := ordered_inTimeOrder arrivals
  have hbegin : (sessions.map (.wait · (timeout * nanosPerTick))).foldlM (step? criterion)
      ⟨b, 0, []⟩ = some ((sessions.foldl begin ⟨b, []⟩).watch sessions timeout 0) :=
    foldlM_begin (show (⟨b, []⟩ : Vigil).ends.length = ([] : List SessionId).length from rfl) hs
  have hwaits : ∀ x ∈ sessions.map (.wait · (timeout * nanosPerTick)), Event.change? x = none := by
    intro x hx
    obtain ⟨s, -, rfl⟩ := List.mem_map.1 hx
    rfl
  have hstands := (Stands.of_idle hb hidle).foldlM hwaits hbegin
  have hlen : (sessions.foldl begin ⟨b, []⟩).ends.length = sessions.length := by
    simp [length_foldl_begin]
  have hintime : ∀ a ∈ (inTimeOrder arrivals).takeWhile (·.1 < timeout), a.1 ≤ timeout := by
    intro a ha
    have hall := List.all_eq_true.1 List.all_takeWhile a ha
    exact Nat.le_of_lt (of_decide_eq_true hall)
  have hin := course_expire criterion (hordered.sublist (List.takeWhile_sublist _))
    (fun _ _ => Nat.zero_le _) hintime (Nat.zero_le _) hstands hlen
  obtain ⟨u, hafter⟩ := Over.exists_course criterion over_expire
    (hordered.sublist (List.dropWhile_sublist _)) fun a ha => le_of_mem_dropWhile hordered ha
  have hcourse := hin.trans hafter
  rw [List.takeWhile_append_dropWhile] at hcourse
  have hlenExpired : ((((inTimeOrder arrivals).takeWhile (·.1 < timeout)).foldl (receive criterion)
      (sessions.foldl begin ⟨b, []⟩)).expire sessions timeout).ends.length = sessions.length := by
    simp [expire, length_foldl_receive, hlen]
  exact ⟨_, _, hbegin, hcourse, hstands.course hcourse, rfl,
    (map_ended_stays (length_foldl_receive.trans hlenExpired)).trans
      over_expire.foldl.map_getD.symm⟩

/-- When a vigil is over nobody waits, and the next may begin. -/
theorem idle_run {b : Board Nat} (hb : b.Follows changes) (hidle : ∀ s, (b.session s).waiters = [])
    (hs : ∀ s ∈ sessions, s < b.sessions.length) (timeout : Nat)
    (arrivals : List (Nat × Message)) :
    (run b criterion sessions timeout arrivals).1.Follows changes ∧
      ∀ s, ((run b criterion sessions timeout arrivals).1.session s).waiters = [] := by
  obtain ⟨u, w, -, -, ⟨events, hkept, rfl⟩, hboard, hended⟩ :=
    exists_course criterion hb hidle hs timeout arrivals
  rw [← hboard]
  refine ⟨hkept.follows, fun s => ?_⟩
  rw [hkept.waiters, List.eq_nil_iff_forall_not_mem]
  intro k hk
  obtain ⟨y, hy, -, hgoes⟩ := mem_pending.1 hk
  have hnone : none ∈ w.stays.map Stay.ended :=
    hgoes ▸ List.mem_map_of_mem (List.mem_of_getElem? hy)
  rw [hended] at hnone
  simp at hnone

end Vigil

end Overlay
