import Overlay.Proofs.Delivery.Waiting

/-!
# Waits that are polled

Nobody who waits knows what will happen. A wait is polled when it is called and whenever something
wakes it: it looks at the cell of the gateway it is waiting on, gives the gateway up if the time for
that is over, and goes on with the next one (`Receipt.firstPoll`, `Pending.poll`). A cell counts how
often its status was set, and a wait that has seen a version does not look at it again. In between
gateways report, in any order and as often as they like, and time passes as long as the wait has
nothing to do (`Lookout.step?`).

What is to be expected of a wait can be told from the histories (`Poll.outcome`), and no poll
changes that. The exception are reports at the very moment at which a gateway is given up: they may
come before that or after it.
-/

namespace Overlay

/-- What a gateway has reported, and how often. -/
structure Cell where
  status : DeliveryStatus
  version : Nat

/-- What a wait is at that is not over. -/
inductive Pending where
  /-- It has seen a version of a cell and waits for another one, until a time. -/
  | gate (cell seen deadline : Nat)
  /-- It waits on a member of a joint receipt. The rest comes afterwards, for the same number of
  nanoseconds each, and in the end all members are looked at once more. -/
  | member (current : Pending) (rest : List (Receipt Nat)) (nanos : Nat)
      (all : List (Receipt Nat))

/-- What comes of it when a wait is polled. -/
inductive Poll where
  | ready (delivered : Bool)
  | pending (pending : Pending)

namespace Poll

/-- A wait on a cell is polled that has not seen its status yet, or has. -/
def gate (cells : Nat → Cell) (now cell deadline : Nat) (unseen : Bool) : Poll :=
  if unseen && (cells cell).status == .delivered then .ready true
  else if deadline ≤ now then .ready false
  else .pending (.gate cell (cells cell).version deadline)

/-- A wait on a member comes first, and something else if nothing was delivered. -/
def followedBy (q : Poll) (rest : List (Receipt Nat)) (nanos : Nat) (all : List (Receipt Nat))
    (next : Poll) : Poll :=
  match q with
  | .ready true => .ready true
  | .ready false => next
  | .pending p => .pending (.member p rest nanos all)

end Poll

mutual

/-- A wait on a receipt is called, and polled for the first time. -/
def Receipt.firstPoll (cells : Nat → Cell) (now : Nat) : Receipt Nat → Nat → Poll
  | .gate _ _ cell, nanos => .gate cells now cell (timerTime now nanos) true
  | .joint _ members, nanos =>
    match members with
    | [] => .ready false
    | _ => firstPollEach cells now members members (evenShare nanos members.length)

/-- A joint receipt goes on with the rest of its members, and looks at all of them in the end. -/
def Receipt.firstPollEach (cells : Nat → Cell) (now : Nat) (all : List (Receipt Nat)) :
    List (Receipt Nat) → Nat → Poll
  | [], _ => .ready (statusOf .unknown (mapAll (fun c => (cells c).status) all) == .delivered)
  | r :: rest, nanos =>
    (r.firstPoll cells now nanos).followedBy rest nanos all (firstPollEach cells now all rest nanos)

end

namespace Pending

def poll (cells : Nat → Cell) (now : Nat) : Pending → Poll
  | .gate cell seen deadline => .gate cells now cell deadline ((cells cell).version != seen)
  | .member p rest nanos all =>
    (p.poll cells now).followedBy rest nanos all (Receipt.firstPollEach cells now all rest nanos)

/-- Whether a wait has nothing to do: it has seen everything, and its time is not over. -/
def asleep (cells : Nat → Cell) (now : Nat) : Pending → Bool
  | .gate cell seen deadline => (cells cell).version == seen && now < deadline
  | .member p _ _ _ => p.asleep cells now

/-- Until when a wait waits on the gateway that it is waiting on. -/
def deadline : Pending → Nat
  | .gate _ _ deadline => deadline
  | .member p _ _ _ => p.deadline

/-- When a wait is over at the latest. -/
def latest : Pending → Nat
  | .gate _ _ deadline => deadline
  | .member p rest nanos _ => p.latest + Receipt.spanEach rest nanos

/-- When a wait gives up a gateway, as long as nothing is delivered. -/
def ends : Pending → List Nat
  | .gate _ _ deadline => [deadline]
  | .member p rest nanos _ => p.ends ++ Receipt.endsEach rest p.latest nanos

/-- A wait has not missed anything: what it has seen of the cell was no delivery, and the time for
the gateway has not run out unnoticed. -/
def Alert (cells : Nat → Cell) (now : Nat) : Pending → Prop
  | .gate cell seen deadline =>
    seen ≤ (cells cell).version ∧ (seen = (cells cell).version → (cells cell).status ≠ .delivered) ∧
      now ≤ deadline
  | .member p _ _ _ => p.Alert cells now

end Pending

/-- Somebody waits on a receipt whose cells change. -/
structure Lookout where
  now : Nat
  cells : Nat → Cell
  poll : Poll

namespace Lookout

inductive Event where
  /-- A gateway reports. -/
  | report (cell : Nat) (status : DeliveryStatus)
  /-- The wait is polled. -/
  | poll
  /-- A millisecond passes. -/
  | tick
deriving DecidableEq

def reported (cells : Nat → Cell) (c : Nat) (status : DeliveryStatus) (d : Nat) : Cell :=
  if d = c then ⟨status, (cells c).version + 1⟩ else cells d

/-- What happens next, as long as the wait is not over. No time passes while it has something to
do. -/
def step? (w : Lookout) (x : Event) : Option Lookout :=
  match w.poll, x with
  | .ready _, _ => none
  | .pending _, .report c status => some { w with cells := reported w.cells c status }
  | .pending p, .poll => some { w with poll := p.poll w.cells w.now }
  | .pending p, .tick => if p.asleep w.cells w.now then some { w with now := w.now + 1 } else none

def run? (w : Lookout) (xs : List Event) : Option Lookout :=
  xs.foldlM step? w

/-- A wait on a receipt for a number of nanoseconds is called. -/
def call (r : Receipt Nat) (nanos now : Nat) (cells : Nat → Cell) : Lookout :=
  ⟨now, cells, r.firstPoll cells now nanos⟩

/-- What is reported on a cell from a time on, each with its time. -/
def changes (c : Nat) : Nat → List Event → List (Nat × DeliveryStatus)
  | _, [] => []
  | now, .report d status :: xs =>
    if d = c then (now, status) :: changes c now xs else changes c now xs
  | now, .poll :: xs => changes c now xs
  | now, .tick :: xs => changes c (now + 1) xs

def history (cells : Nat → Cell) (now : Nat) (xs : List Event) (c : Nat) : History :=
  ⟨(cells c).status, changes c now xs⟩

end Lookout

/-! ## What is to be expected -/

/-- All members are looked at when the last wait on one of them is over. -/
def Receipt.conclude (h : Nat → History) (all : List (Receipt Nat)) (last : WaitEnd) : WaitEnd :=
  if last.delivered then last
  else ⟨statusOf .unknown (mapAll (fun c => (h c).statusAt last.time) all) == .delivered, last.time⟩

/-- The end of a wait that is told from the histories. -/
def Pending.outcome (h : Nat → History) (now : Nat) : Pending → WaitEnd
  | .gate cell _ deadline => (h cell).watch now deadline
  | .member p rest nanos all =>
    Receipt.conclude h all <|
      if (p.outcome h now).delivered then p.outcome h now
      else Receipt.waitEach (Receipt.mapAll h rest) (p.outcome h now).time nanos

def Poll.outcome (h : Nat → History) (now : Nat) : Poll → WaitEnd
  | .ready delivered => ⟨delivered, now⟩
  | .pending p => p.outcome h now

/-! ## No poll changes what is to be expected

As long as nothing more is reported at the same time. -/

variable {h h' : Nat → History} {cells : Nat → Cell} {now nanos : Nat} {p q : Pending}
  {all rest : List (Receipt Nat)}

theorem Poll.outcome_gate {cell deadline : Nat} {unseen : Bool}
    (hnow : (h cell).statusAt now = (cells cell).status)
    (hseen : unseen = false → (cells cell).status ≠ .delivered) (hle : now ≤ deadline) :
    (Poll.gate cells now cell deadline unseen).outcome h now = (h cell).watch now deadline := by
  unfold Poll.gate
  split
  · next hdelivered =>
    have hdelivered : (cells cell).status = .delivered := by
      simpa using (Bool.and_eq_true_iff.1 hdelivered).2
    exact (History.watch_of_delivered hle (hnow.trans hdelivered)).symm
  · next hnot =>
    have hnot : (h cell).statusAt now ≠ .delivered := by
      rw [hnow]
      cases unseen with
      | false => exact hseen rfl
      | true => simpa using hnot
    split
    · next hover =>
      obtain rfl := Nat.le_antisymm hle hover
      exact (History.watch_at_deadline hnot).symm
    · rfl

/-- What is ready at once has taken no time. -/
theorem Poll.outcome_followedBy {next : Poll}
    (hnext : next.outcome h now =
      Receipt.conclude h all (Receipt.waitEach (Receipt.mapAll h rest) now nanos)) (q : Poll) :
    (q.followedBy rest nanos all next).outcome h now =
      Receipt.conclude h all (if (q.outcome h now).delivered then q.outcome h now
        else Receipt.waitEach (Receipt.mapAll h rest) (q.outcome h now).time nanos) := by
  match q with
  | .ready true => rfl
  | .ready false => exact hnext
  | .pending p => rfl

namespace Receipt

theorem wait_map_joint (message : Uuid) (members : List (Receipt Nat)) :
    ((joint message members).map h).wait now nanos =
      conclude h members (waitEach (mapAll h members) now (evenShare nanos members.length)) := by
  rw [map, wait_joint, length_mapAll]
  simp only [mapAll_mapAll]
  rfl

theorem firstPoll_joint (message : Uuid) (members : List (Receipt Nat)) :
    (joint message members).firstPoll cells now nanos =
      firstPollEach cells now members members (evenShare nanos members.length) := by
  cases members with
  | nil => rfl
  | cons r rest => rfl

mutual

theorem outcome_firstPoll (hnow : ∀ c, (h c).statusAt now = (cells c).status) :
    ∀ (r : Receipt Nat) (nanos : Nat),
      (r.firstPoll cells now nanos).outcome h now = (r.map h).wait now nanos
  | .gate _ _ c, nanos => Poll.outcome_gate (hnow c) (by simp) (le_timerTime now nanos)
  | .joint message members, nanos => by
    rw [firstPoll_joint, outcome_firstPollEach hnow members members, wait_map_joint]

theorem outcome_firstPollEach (hnow : ∀ c, (h c).statusAt now = (cells c).status) :
    ∀ (all rest : List (Receipt Nat)) (nanos : Nat),
      (firstPollEach cells now all rest nanos).outcome h now =
        conclude h all (waitEach (mapAll h rest) now nanos)
  | all, [], nanos => by
    have hcells : (fun c => (cells c).status) = fun c => (h c).statusAt now :=
      funext fun c => (hnow c).symm
    rw [firstPollEach, hcells]
    rfl
  | all, r :: rest, nanos => by
    rw [firstPollEach, Poll.outcome_followedBy (outcome_firstPollEach hnow all rest nanos),
      outcome_firstPoll hnow r nanos, mapAll, waitEach_cons]

end

end Receipt

theorem Pending.outcome_poll (hnow : ∀ c, (h c).statusAt now = (cells c).status)
    (halert : p.Alert cells now) : (p.poll cells now).outcome h now = p.outcome h now := by
  induction p with
  | gate cell seen deadline =>
    obtain ⟨-, hseen, hle⟩ := halert
    refine Poll.outcome_gate (hnow cell) (fun hunseen => hseen ?_) hle
    have hversion : (cells cell).version = seen := by simpa using hunseen
    exact hversion.symm
  | member p rest nanos all ih =>
    rw [poll, Poll.outcome_followedBy (Receipt.outcome_firstPollEach hnow all rest nanos),
      ih halert]
    rfl

/-! ## Nor does one that is followed by reports

Unless a gateway is given up at that time, the wait goes on with the same gateway. -/

theorem Poll.gate_of_lt {cell deadline : Nat} {unseen : Bool} (hlt : now < deadline) :
    Poll.gate cells now cell deadline unseen = .ready true ∨
      Poll.gate cells now cell deadline unseen =
        .pending (.gate cell (cells cell).version deadline) := by
  unfold Poll.gate
  split
  · exact .inl rfl
  · rw [if_neg (Nat.not_le.2 hlt)]
    exact .inr rfl

theorem Pending.poll_of_lt (cells : Nat → Cell) (hlt : now < p.deadline) :
    p.poll cells now = .ready true ∨
      ∃ q, p.poll cells now = .pending q ∧ ∀ h, q.outcome h now = p.outcome h now := by
  induction p with
  | gate cell seen deadline =>
    rcases Poll.gate_of_lt hlt with hpoll | hpoll
    · exact .inl hpoll
    · exact .inr ⟨_, hpoll, fun _ => rfl⟩
  | member p rest nanos all ih =>
    rcases ih hlt with hpoll | ⟨q, hpoll, hq⟩
    · exact .inl (by rw [poll, hpoll]; rfl)
    · refine .inr ⟨.member q rest nanos all, by rw [poll, hpoll]; rfl, fun h => ?_⟩
      rw [outcome, outcome, hq]

namespace Receipt

/-! Receipts of no gateways take no time. -/

mutual

theorem span_of_leaves : ∀ (r : Receipt Nat) (nanos : Nat), r.leaves = [] → r.span nanos = 0
  | .joint _ members, _, hnone => spanEach_of_leaves members _ hnone

theorem spanEach_of_leaves :
    ∀ (rs : List (Receipt Nat)) (nanos : Nat), leavesEach rs = [] → spanEach rs nanos = 0
  | [], _, _ => rfl
  | r :: rest, nanos, hnone => by
    have ⟨hr, hrest⟩ := List.append_eq_nil_iff.1 hnone
    rw [spanEach, span_of_leaves r nanos hr, spanEach_of_leaves rest nanos hrest]

end

theorem wait_of_leaves (h : Nat → History) {r : Receipt Nat} (nanos : Nat) (hnone : r.leaves = []) :
    (r.map h).wait now nanos = ⟨false, now⟩ := by
  rw [wait_of_never now nanos (by simp [hnone]), span_of_leaves r nanos hnone, Nat.add_zero]

theorem statusOf_of_leaves (f : Nat → DeliveryStatus) {rs : List (Receipt Nat)}
    (hnone : leavesEach rs = []) : (statusOf .unknown (mapAll f rs) == .delivered) = false := by
  refine beq_false_of_ne fun hdelivered => ?_
  simp [statusOf_eq_delivered, hnone] at hdelivered

mutual

theorem firstPoll_of_not_mem (cells : Nat → Cell) : ∀ (r : Receipt Nat) (nanos : Nat),
    now ∉ r.ends now nanos →
    r.leaves = [] ∧ r.firstPoll cells now nanos = .ready false ∨
      r.firstPoll cells now nanos = .ready true ∨
      ∃ p, r.firstPoll cells now nanos = .pending p ∧
        ∀ h, p.outcome h now = (r.map h).wait now nanos
  | .gate _ _ c, nanos, hends => by
    have hne : now ≠ timerTime now nanos := by simpa [ends] using hends
    have hlt : now < timerTime now nanos := Nat.lt_of_le_of_ne (le_timerTime now nanos) hne
    rcases Poll.gate_of_lt hlt with hpoll | hpoll
    · exact .inr (.inl hpoll)
    · exact .inr (.inr ⟨_, hpoll, fun _ => rfl⟩)
  | .joint message members, nanos, hends => by
    simp only [firstPoll_joint, wait_map_joint]
    rcases firstPollEach_of_not_mem cells members members _ hends with
      ⟨hnone, hpoll⟩ | hpoll | hpoll
    · exact .inl ⟨hnone, hpoll.trans (congrArg Poll.ready (statusOf_of_leaves _ hnone))⟩
    · exact .inr (.inl hpoll)
    · exact .inr (.inr hpoll)

theorem firstPollEach_of_not_mem (cells : Nat → Cell) :
    ∀ (all rest : List (Receipt Nat)) (nanos : Nat),
    now ∉ endsEach rest now nanos →
    leavesEach rest = [] ∧ firstPollEach cells now all rest nanos =
        .ready (statusOf .unknown (mapAll (fun c => (cells c).status) all) == .delivered) ∨
      firstPollEach cells now all rest nanos = .ready true ∨
      ∃ p, firstPollEach cells now all rest nanos = .pending p ∧
        ∀ h, p.outcome h now = conclude h all (waitEach (mapAll h rest) now nanos)
  | _, [], _, _ => .inl ⟨rfl, rfl⟩
  | all, r :: rest, nanos, hends => by
    rw [endsEach, List.mem_append, not_or] at hends
    rcases firstPoll_of_not_mem cells r nanos hends.1 with ⟨hnone, hpoll⟩ | hpoll | ⟨p, hpoll, hp⟩
    · rw [span_of_leaves r nanos hnone] at hends
      simp only [firstPollEach, hpoll, Poll.followedBy, leavesEach, hnone, List.nil_append, mapAll,
        waitEach_cons, wait_of_leaves _ nanos hnone]
      exact firstPollEach_of_not_mem cells all rest nanos hends.2
    · exact .inr (.inl (by rw [firstPollEach, hpoll]; rfl))
    · refine .inr (.inr ⟨.member p rest nanos all, by rw [firstPollEach, hpoll]; rfl, fun h => ?_⟩)
      rw [Pending.outcome, hp, mapAll, waitEach_cons]

end

end Receipt

end Overlay
