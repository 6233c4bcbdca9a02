import Overlay.Proofs.Delivery.Polling

/-!
# What a polled wait comes to

Along a run the wait keeps up with the cells (`Pending.Alert`), it ends no later than was to be
expected when it was called (`Poll.Lasts`), and what is to be expected of it stays the same: with
every event the histories lose what lies behind. So a run that is over has ended as `Receipt.wait`
says (`Lookout.run_eq_wait`), and a run that is not over can be continued until it is, without a
single report (`Lookout.exists_ready`).
-/

namespace Overlay

variable {h h' : Nat → History} {cells : Nat → Cell} {now nanos latest t c : Nat} {p q : Pending}
  {all rest : List (Receipt Nat)} {ends : List Nat} {xs : List Lookout.Event} {w w' : Lookout}
  {b : Bool}

/-! ## Time passes -/

namespace Receipt

theorem conclude_congr {last : WaitEnd}
    (hsame : ∀ c, (h c).statusAt last.time = (h' c).statusAt last.time) :
    conclude h all last = conclude h' all last := by
  rw [conclude, conclude, funext hsame]

theorem time_conclude (last : WaitEnd) : (conclude h all last).time = last.time := by
  rw [conclude]
  split <;> rfl

end Receipt

namespace Pending

theorem deadline_le_latest (p : Pending) : p.deadline ≤ p.latest := by
  induction p with
  | gate cell seen deadline => exact Nat.le_refl _
  | member p rest nanos all ih => exact Nat.le_trans ih (Nat.le_add_right _ _)

theorem deadline_mem_ends (p : Pending) : p.deadline ∈ p.ends := by
  induction p with
  | gate cell seen deadline => exact List.mem_singleton_self _
  | member p rest nanos all ih => exact List.mem_append_left _ ih

theorem Alert.le_deadline (halert : p.Alert cells now) : now ≤ p.deadline := by
  induction p with
  | gate cell seen deadline => exact halert.2.2
  | member p rest nanos all ih => exact ih halert

/-- A report is news. -/
theorem Alert.reported (halert : p.Alert cells now) (c : Nat) (status : DeliveryStatus) :
    p.Alert (Lookout.reported cells c status) now := by
  induction p with
  | gate cell seen deadline =>
    obtain ⟨hversion, hseen, hle⟩ := halert
    by_cases hcell : cell = c
    · subst hcell
      simp only [Alert, Lookout.reported, if_true]
      exact ⟨by omega, by omega, hle⟩
    · simp only [Alert, Lookout.reported, if_neg hcell]
      exact ⟨hversion, hseen, hle⟩
  | member p rest nanos all ih => exact ih halert

theorem Alert.tick (halert : p.Alert cells now) (hasleep : p.asleep cells now = true) :
    p.Alert cells (now + 1) := by
  induction p with
  | gate cell seen deadline =>
    obtain ⟨hversion, hseen, -⟩ := halert
    have hlt : now < deadline := by simpa using (Bool.and_eq_true_iff.1 hasleep).2
    exact ⟨hversion, hseen, hlt⟩
  | member p rest nanos all ih => exact ih halert hasleep

theorem le_time_outcome (hle : now ≤ p.deadline) : now ≤ (p.outcome h now).time := by
  induction p with
  | gate cell seen deadline => exact History.le_time_watch hle
  | member p rest nanos all ih =>
    rw [outcome, Receipt.time_conclude]
    split
    · exact ih hle
    · exact Nat.le_trans (ih hle) (Receipt.waitEach_within _ _ _).start_le

/-- Only what happens from now on matters. -/
theorem outcome_congr (hle : now ≤ p.deadline)
    (hsame : ∀ c u, now ≤ u → (h c).statusAt u = (h' c).statusAt u) :
    p.outcome h now = p.outcome h' now := by
  induction p with
  | gate cell seen deadline => exact History.watch_congr (hsame cell)
  | member p rest nanos all ih =>
    have hstart : now ≤ (p.outcome h' now).time := le_time_outcome hle
    have hrest := Receipt.waitEach_congr rest nanos fun c u hu =>
      hsame c u (Nat.le_trans hstart hu)
    rw [outcome, outcome, ih hle, hrest]
    refine Receipt.conclude_congr fun c => hsame c _ ?_
    split
    · exact hstart
    · exact Nat.le_trans hstart (Receipt.waitEach_within _ _ _).start_le

/-- A wait that has nothing to do loses nothing when time passes. -/
theorem outcome_succ (hnow : ∀ c, (h c).statusAt now = (cells c).status)
    (halert : p.Alert cells now) (hasleep : p.asleep cells now = true) :
    p.outcome h now = p.outcome h (now + 1) := by
  induction p with
  | gate cell seen deadline =>
    have hversion : (cells cell).version = seen := by
      simpa using (Bool.and_eq_true_iff.1 hasleep).1
    exact History.watch_succ (hnow cell ▸ halert.2.1 hversion.symm)
  | member p rest nanos all ih => rw [outcome, outcome, ih halert hasleep]

end Pending

/-! ## A wait keeps to its times -/

/-- A wait that is over ended by a time, and at that time if nothing was delivered. One that is not
over has missed nothing, and keeps to the times that were to be expected. -/
def Poll.Lasts (cells : Nat → Cell) (now latest : Nat) (ends : List Nat) : Poll → Prop
  | .ready delivered => now ≤ latest ∧ (delivered = false → now = latest)
  | .pending p => p.Alert cells now ∧ p.latest = latest ∧ p.ends ⊆ ends

namespace Poll

theorem Lasts.le {poll : Poll} (hlasts : poll.Lasts cells now latest ends) : now ≤ latest := by
  cases poll with
  | ready b => exact hlasts.1
  | pending p =>
    obtain ⟨halert, hlatest, -⟩ := hlasts
    exact hlatest ▸ Nat.le_trans halert.le_deadline p.deadline_le_latest

theorem gate_lasts {cell deadline : Nat} {unseen : Bool}
    (hseen : unseen = false → (cells cell).status ≠ .delivered) (hle : now ≤ deadline) :
    (gate cells now cell deadline unseen).Lasts cells now deadline [deadline] := by
  unfold gate
  split
  · exact ⟨hle, by simp⟩
  · next hnot =>
    split
    · next hover => exact ⟨hle, fun _ => Nat.le_antisymm hle hover⟩
    · refine ⟨⟨Nat.le_refl _, fun _ => ?_, hle⟩, rfl, List.Subset.refl _⟩
      cases unseen with
      | false => exact hseen rfl
      | true => simpa using hnot

theorem Lasts.followedBy {first next : Poll} (hfirst : first.Lasts cells now latest ends)
    (hnext : next.Lasts cells now (now + Receipt.spanEach rest nanos)
      (Receipt.endsEach rest now nanos)) :
    (first.followedBy rest nanos all next).Lasts cells now (latest + Receipt.spanEach rest nanos)
      (ends ++ Receipt.endsEach rest latest nanos) := by
  match first with
  | .ready true => exact ⟨Nat.le_trans hfirst.1 (Nat.le_add_right _ _), by simp⟩
  | .ready false =>
    obtain rfl := hfirst.2 rfl
    match next with
    | .ready b => exact hnext
    | .pending p =>
      obtain ⟨halert, hlatest, hends⟩ := hnext
      exact ⟨halert, hlatest, List.subset_append_of_subset_right _ hends⟩
  | .pending p =>
    obtain ⟨halert, rfl, hends⟩ := hfirst
    exact ⟨halert, rfl, List.append_subset.2 ⟨List.subset_append_of_subset_left _ hends,
      List.subset_append_right _ _⟩⟩

end Poll

mutual

theorem Receipt.firstPoll_lasts : ∀ (r : Receipt Nat) (nanos : Nat),
    (r.firstPoll cells now nanos).Lasts cells now (now + r.span nanos) (r.ends now nanos)
  | .gate _ _ _, nanos => Poll.gate_lasts (by simp) (le_timerTime now nanos)
  | .joint message members, nanos => by
    rw [firstPoll_joint]
    exact Receipt.firstPollEach_lasts members members _

theorem Receipt.firstPollEach_lasts : ∀ (all rest : List (Receipt Nat)) (nanos : Nat),
    (firstPollEach cells now all rest nanos).Lasts cells now (now + spanEach rest nanos)
      (endsEach rest now nanos)
  | _, [], _ => ⟨Nat.le_refl _, fun _ => rfl⟩
  | all, r :: rest, nanos => by
    rw [firstPollEach, spanEach, endsEach, ← Nat.add_assoc]
    exact (Receipt.firstPoll_lasts r nanos).followedBy (Receipt.firstPollEach_lasts all rest nanos)

end

theorem Pending.poll_lasts (halert : p.Alert cells now) :
    (p.poll cells now).Lasts cells now p.latest p.ends := by
  induction p with
  | gate cell seen deadline =>
    obtain ⟨-, hseen, hle⟩ := halert
    refine Poll.gate_lasts (fun hunseen => hseen ?_) hle
    have hversion : (cells cell).version = seen := by simpa using hunseen
    exact hversion.symm
  | member p rest nanos all ih =>
    exact (ih halert).followedBy (Receipt.firstPollEach_lasts all rest nanos)

/-! ## What was polled is asleep -/

/-- A wait that is not over has nothing to do. -/
def Poll.Resting (cells : Nat → Cell) (now : Nat) (q : Poll) : Prop :=
  ∀ p, q = .pending p → p.asleep cells now = true

namespace Poll

theorem gate_resting {cell deadline : Nat} {unseen : Bool} :
    (gate cells now cell deadline unseen).Resting cells now := by
  intro p hp
  unfold gate at hp
  split at hp
  · contradiction
  · split at hp
    · contradiction
    · next hnot =>
      obtain rfl := Poll.pending.inj hp
      simpa [Pending.asleep] using hnot

theorem Resting.followedBy {first next : Poll} (hfirst : first.Resting cells now)
    (hnext : next.Resting cells now) :
    (first.followedBy rest nanos all next).Resting cells now := by
  match first with
  | .ready true => exact fun _ hp => absurd hp (by simp [Poll.followedBy])
  | .ready false => exact hnext
  | .pending p =>
    intro q hq
    obtain rfl := Poll.pending.inj hq
    exact hfirst p rfl

end Poll

mutual

theorem Receipt.firstPoll_resting : ∀ (r : Receipt Nat) (nanos : Nat),
    (r.firstPoll cells now nanos).Resting cells now
  | .gate _ _ _, _ => Poll.gate_resting
  | .joint message members, nanos => by
    rw [firstPoll_joint]
    exact Receipt.firstPollEach_resting members members _

theorem Receipt.firstPollEach_resting : ∀ (all rest : List (Receipt Nat)) (nanos : Nat),
    (firstPollEach cells now all rest nanos).Resting cells now
  | _, [], _ => fun _ hp => nomatch hp
  | all, r :: rest, nanos =>
    (Receipt.firstPoll_resting r nanos).followedBy (Receipt.firstPollEach_resting all rest nanos)

end

theorem Pending.poll_resting (p : Pending) : (p.poll cells now).Resting cells now := by
  induction p with
  | gate cell seen deadline => exact Poll.gate_resting
  | member p rest nanos all ih =>
    exact ih.followedBy (Receipt.firstPollEach_resting all rest nanos)

/-! ## Reports -/

/-- Before its changes a history has its first status. -/
theorem History.statusAt_of_lt {h : History} (hlater : ∀ x ∈ h.changes, t < x.1) :
    h.statusAt t = h.first := by
  have hsame : ∀ s, ∀ x ∈ h.changes, (if x.1 ≤ t then x.2 else s) = s := fun s x hx =>
    if_neg (Nat.not_le.2 (hlater x hx))
  rw [statusAt, List.foldl_ext _ (fun s _ => s) _ hsame]
  exact List.foldl_fixed _

namespace Lookout

theorem le_of_mem_changes {x : Nat × DeliveryStatus} :
    ∀ {xs : List Event} {now : Nat}, x ∈ changes c now xs → now ≤ x.1
  | .report d status :: xs, now, hx => by
    rw [changes] at hx
    split at hx
    · rcases List.mem_cons.1 hx with rfl | hx
      · exact Nat.le_refl _
      · exact le_of_mem_changes hx
    · exact le_of_mem_changes hx
  | .poll :: xs, now, hx => le_of_mem_changes (show x ∈ changes c now xs from hx)
  | .tick :: xs, now, hx =>
    Nat.le_of_succ_le (le_of_mem_changes (show x ∈ changes c (now + 1) xs from hx))

def Apart (ends : List Nat) (now : Nat) (xs : List Event) : Prop :=
  ∀ c, ∀ x ∈ changes c now xs, x.1 ∉ ends

theorem Apart.of_report {status : DeliveryStatus}
    (hapart : Apart ends now (.report c status :: xs)) : Apart ends now xs := by
  intro d x hx
  refine hapart d x ?_
  rw [changes]
  split
  · exact List.mem_cons_of_mem _ hx
  · exact hx

/-- Either the cells are settled for now, or no gateway is given up now. -/
theorem Apart.settled_or (hapart : Apart ends now xs) (cells : Nat → Cell) :
    (∀ c, (history cells now xs c).statusAt now = (cells c).status) ∨ now ∉ ends ∧ xs ≠ [] := by
  by_cases hfree : ∀ c, ∀ x ∈ changes c now xs, x.1 ≠ now
  · refine .inl fun c => History.statusAt_of_lt fun x hx => ?_
    exact Nat.lt_of_le_of_ne (le_of_mem_changes hx) (hfree c x hx).symm
  · push Not at hfree
    obtain ⟨c, x, hx, rfl⟩ := hfree
    refine .inr ⟨hapart c x hx, ?_⟩
    rintro rfl
    exact absurd hx List.not_mem_nil

theorem history_report (cells : Nat → Cell) (xs : List Event) (d : Nat) (status : DeliveryStatus)
    (c : Nat) {u : Nat} (hu : now ≤ u) :
    (history cells now (.report d status :: xs) c).statusAt u =
      (history (reported cells d status) now xs c).statusAt u := by
  by_cases hd : d = c
  · simp [history, History.statusAt, changes, reported, hd, hu]
  · simp [history, History.statusAt, changes, reported, hd, Ne.symm hd]

/-! ## Runs -/

theorem run?_cons (w : Lookout) (x : Event) (xs : List Event) :
    w.run? (x :: xs) = (w.step? x).bind (·.run? xs) := rfl

/-- Nothing happens any more to a wait that is over. -/
theorem eq_of_run_ready (hready : w.poll = .ready b) (hrun : w.run? xs = some w') :
    xs = [] ∧ w' = w := by
  cases xs with
  | nil => exact ⟨rfl, (Option.some.inj hrun).symm⟩
  | cons x xs =>
    simp [run?_cons, step?, hready] at hrun

/-- What can happen to a wait. -/
theorem step?_eq_some {x : Event} (hstep : w.step? x = some w') : ∃ p, w.poll = .pending p ∧
    ((∃ c status, x = .report c status ∧ w' = { w with cells := reported w.cells c status }) ∨
      x = .poll ∧ w' = { w with poll := p.poll w.cells w.now } ∨
      x = .tick ∧ p.asleep w.cells w.now = true ∧ w' = { w with now := w.now + 1 }) := by
  cases hpoll : w.poll with
  | ready b => simp [step?, hpoll] at hstep
  | pending p =>
    refine ⟨p, rfl, ?_⟩
    cases x with
    | report c status =>
      refine .inl ⟨c, status, rfl, ?_⟩
      simpa [step?, hpoll] using hstep.symm
    | poll =>
      refine .inr (.inl ⟨rfl, ?_⟩)
      simpa [step?, hpoll] using hstep.symm
    | tick =>
      simp only [step?, hpoll, Option.ite_none_right_eq_some, Option.some.injEq] at hstep
      exact .inr (.inr ⟨rfl, hstep.1, hpoll ▸ hstep.2.symm⟩)

theorem now_le_of_step {x : Event} (hstep : w.step? x = some w') : w.now ≤ w'.now := by
  obtain ⟨p, -, ⟨c, status, -, rfl⟩ | ⟨-, rfl⟩ | ⟨-, -, rfl⟩⟩ := step?_eq_some hstep
  · exact Nat.le_refl _
  · exact Nat.le_refl _
  · exact Nat.le_succ _

theorem now_le_of_run (hrun : w.run? xs = some w') : w.now ≤ w'.now := by
  induction xs generalizing w with
  | nil => exact Option.some.inj hrun ▸ Nat.le_refl _
  | cons x xs ih =>
    obtain ⟨u, hstep, hrest⟩ := Option.bind_eq_some_iff.1 (run?_cons w x xs ▸ hrun)
    exact Nat.le_trans (now_le_of_step hstep) (ih hrest)

/-- The histories say what the cells show in the end. -/
theorem statusAt_of_run (hrun : w.run? xs = some w') (c : Nat) :
    (history w.cells w.now xs c).statusAt w'.now = (w'.cells c).status := by
  induction xs generalizing w with
  | nil =>
    obtain rfl := Option.some.inj hrun
    rfl
  | cons x xs ih =>
    have hnow := now_le_of_run hrun
    obtain ⟨u, hstep, hrest⟩ := Option.bind_eq_some_iff.1 (run?_cons w x xs ▸ hrun)
    obtain ⟨p, -, ⟨d, status, rfl, rfl⟩ | ⟨rfl, rfl⟩ | ⟨rfl, -, rfl⟩⟩ := step?_eq_some hstep
    · rw [history_report w.cells xs d status c hnow]
      exact ih hrest
    · exact ih (w := { w with poll := p.poll w.cells w.now }) hrest
    · exact ih hrest

/-- A wait keeps to its times. -/
def Lasts (w : Lookout) (latest : Nat) (ends : List Nat) : Prop :=
  w.poll.Lasts w.cells w.now latest ends

theorem call_lasts (r : Receipt Nat) (nanos now : Nat) (cells : Nat → Cell) :
    (call r nanos now cells).Lasts (now + r.span nanos) (r.ends now nanos) :=
  r.firstPoll_lasts nanos

theorem Lasts.step {x : Event} (hlasts : w.Lasts latest ends) (hstep : w.step? x = some w') :
    w'.Lasts latest ends := by
  obtain ⟨p, hpoll, hevent⟩ := step?_eq_some hstep
  rw [Lasts, hpoll] at hlasts
  obtain ⟨halert, hlatest, hends⟩ := hlasts
  rcases hevent with ⟨c, status, -, rfl⟩ | ⟨-, rfl⟩ | ⟨-, hasleep, rfl⟩
  · rw [Lasts, hpoll]
    exact ⟨halert.reported c status, hlatest, hends⟩
  · have hpolled := Pending.poll_lasts halert
    rw [Lasts]
    simp only
    cases hq : p.poll w.cells w.now with
    | ready b =>
      rw [hq] at hpolled
      exact hlatest ▸ hpolled
    | pending q =>
      rw [hq] at hpolled
      obtain ⟨hq, hqlatest, hqends⟩ := hpolled
      exact ⟨hq, hqlatest.trans hlatest, List.Subset.trans hqends hends⟩
  · rw [Lasts, hpoll]
    exact ⟨halert.tick hasleep, hlatest, hends⟩

theorem Lasts.run (hlasts : w.Lasts latest ends) (hrun : w.run? xs = some w') :
    w'.Lasts latest ends := by
  induction xs generalizing w with
  | nil => exact Option.some.inj hrun ▸ hlasts
  | cons x xs ih =>
    obtain ⟨u, hstep, hrest⟩ := Option.bind_eq_some_iff.1 (run?_cons w x xs ▸ hrun)
    exact ih (hlasts.step hstep) hrest

/-- Along a run what is to be expected stays the same. -/
theorem outcome_eq_of_run (hlasts : w.Lasts latest ends) (hapart : Apart ends w.now xs)
    (hrun : w.run? xs = some w') (hready : w'.poll = .ready b) :
    w.poll.outcome (history w.cells w.now xs) w.now = ⟨b, w'.now⟩ := by
  induction xs generalizing w with
  | nil =>
    obtain rfl := Option.some.inj hrun
    rw [hready]
    rfl
  | cons x xs ih =>
    obtain ⟨u, hstep, hrest⟩ := Option.bind_eq_some_iff.1 (run?_cons w x xs ▸ hrun)
    have ih := ih (hlasts.step hstep)
    obtain ⟨p, hpoll, hevent⟩ := step?_eq_some hstep
    rw [Lasts, hpoll] at hlasts
    obtain ⟨halert, -, hends⟩ := hlasts
    rw [hpoll]
    rcases hevent with ⟨c, status, rfl, rfl⟩ | ⟨rfl, rfl⟩ | ⟨rfl, hasleep, rfl⟩
    · rw [← ih hapart.of_report hrest, hpoll]
      exact Pending.outcome_congr halert.le_deadline fun d u hu =>
        history_report w.cells xs c status d hu
    · have ih := ih hapart hrest
      simp only at ih
      rw [← ih]
      change p.outcome (history w.cells w.now xs) w.now = _
      have hapart : Apart ends w.now xs := hapart
      -- The poll may come before reports of the same moment, but then no gateway is given up at it.
      rcases hapart.settled_or w.cells with hnow | ⟨hnot, hne⟩
      · exact (Pending.outcome_poll hnow halert).symm
      · have hlt := Nat.lt_of_le_of_ne halert.le_deadline fun heq =>
          hnot (heq ▸ hends p.deadline_mem_ends)
        rcases Pending.poll_of_lt w.cells hlt with hq | ⟨q, hq, hsame⟩
        · exact absurd (eq_of_run_ready (w := { w with poll := _ }) hq hrest).1 hne
        · rw [hq]
          exact (hsame _).symm
    · rw [← ih hapart hrest, hpoll]
      refine Pending.outcome_succ (fun c => History.statusAt_of_lt fun x hx => ?_) halert hasleep
      exact le_of_mem_changes (show x ∈ changes c (w.now + 1) xs from hx)

variable {r : Receipt Nat}

/-- A wait that is polled ends as foretold, if nothing is reported when a gateway is given up. -/
theorem run_eq_wait (hapart : Apart (r.ends now nanos) now xs)
    (hrun : (call r nanos now cells).run? xs = some w) (hready : w.poll = .ready b) :
    (r.map (history cells now xs)).wait now nanos = ⟨b, w.now⟩ := by
  rw [← outcome_eq_of_run (call_lasts r nanos now cells) hapart hrun hready]
  rcases hapart.settled_or cells with hnow | ⟨hnot, hne⟩
  · exact (Receipt.outcome_firstPoll hnow r nanos).symm
  · have hover : ∀ {d}, r.firstPoll cells now nanos ≠ .ready d := fun hd =>
      hne (eq_of_run_ready hd hrun).1
    rcases r.firstPoll_of_not_mem cells nanos hnot with ⟨-, hd⟩ | hd | ⟨p, hp, hsame⟩
    · exact absurd hd hover
    · exact absurd hd hover
    · rw [← hsame, call, hp]
      rfl

/-- No wait takes longer than the receipt's time, whatever is reported and whenever it is polled,
and one that finds nothing takes exactly that time. -/
theorem run_lasts (hrun : (call r nanos now cells).run? xs = some w) :
    w.now ≤ now + r.span nanos ∧ (w.poll = .ready false → w.now = now + r.span nanos) := by
  have hlasts := (call_lasts r nanos now cells).run hrun
  refine ⟨Poll.Lasts.le hlasts, fun hready => ?_⟩
  rw [Lasts, hready] at hlasts
  exact hlasts.2 rfl

/-- A wait that has nothing to do is over in time if nothing is reported. -/
theorem exists_ready_of_resting (hlasts : w.Lasts latest ends)
    (hresting : w.poll.Resting w.cells w.now) : ∃ xs w' b,
      w.run? xs = some w' ∧ w'.poll = .ready b ∧ ∀ c, changes c w.now xs = [] := by
  -- A tick and a poll bring the wait nearer to its end, and it is at rest again.
  generalize hleft : latest - w.now = left
  induction left using Nat.strongRecOn generalizing w with
  | _ left ih =>
    cases hpoll : w.poll with
    | ready b => exact ⟨[], w, b, rfl, hpoll, fun _ => rfl⟩
    | pending p =>
      have hasleep := hresting p hpoll
      have htick : w.step? .tick = some { w with now := w.now + 1 } := by
        simp only [step?, hpoll, hasleep, if_true]
      have hpolled : ({ w with now := w.now + 1 } : Lookout).step? .poll =
          some { w with now := w.now + 1, poll := p.poll w.cells (w.now + 1) } := by
        simp only [step?, hpoll]
      have hlater := (hlasts.step htick).step hpolled
      have hlt : w.now + 1 ≤ latest := Poll.Lasts.le hlater
      have hless : latest - (w.now + 1) < left := by omega
      obtain ⟨xs, w', b, hrun, hready, hnone⟩ :=
        ih _ hless hlater (Pending.poll_resting p) rfl
      refine ⟨.tick :: .poll :: xs, w', b, ?_, hready, hnone⟩
      rw [run?_cons, htick, Option.bind_some, run?_cons, hpolled, Option.bind_some, hrun]

/-- A wait that is not over will be, without any further report. -/
theorem exists_ready (hlasts : w.Lasts latest ends) : ∃ xs w' b,
    w.run? xs = some w' ∧ w'.poll = .ready b ∧ ∀ c, changes c w.now xs = [] := by
  cases hpoll : w.poll with
  | ready b => exact ⟨[], w, b, rfl, hpoll, fun _ => rfl⟩
  | pending p =>
    have hpolled : w.step? .poll = some { w with poll := p.poll w.cells w.now } := by
      simp only [step?, hpoll]
    obtain ⟨xs, w', b, hrun, hready, hnone⟩ :=
      exists_ready_of_resting (hlasts.step hpolled) (Pending.poll_resting p)
    refine ⟨.poll :: xs, w', b, ?_, hready, hnone⟩
    rw [run?_cons, hpolled, Option.bind_some, hrun]

end Lookout

end Overlay
