/-!
# Timers

Time is counted in whole milliseconds, deadlines are exact to the nanosecond. A timer fires at the
first millisecond that is not before its deadline.

What is announced with times need not be announced in the order of the times, but that is the order
in which it happens. What has the same time happens in the order in which it was announced.
-/

namespace Overlay

def nanosPerTick : Nat := 1000000

/-- The millisecond at which a timer with the given deadline fires. -/
def firingTime (deadlineNanos : Nat) : Nat :=
  (deadlineNanos + (nanosPerTick - 1)) / nanosPerTick

/-- The millisecond at which a timer fires that is set at one for a number of nanoseconds. -/
def timerTime (start nanos : Nat) : Nat :=
  start + firingTime nanos

/-- Puts an event before the first one that is not earlier. -/
def placeEvent {α : Type} (e : Nat × α) : List (Nat × α) → List (Nat × α)
  | [] => [e]
  | f :: rest => if e.1 ≤ f.1 then e :: f :: rest else f :: placeEvent e rest

def inTimeOrder {α : Type} (events : List (Nat × α)) : List (Nat × α) :=
  events.foldr placeEvent []

theorem perm_placeEvent {α : Type} (e : Nat × α) (l : List (Nat × α)) :
    (placeEvent e l).Perm (e :: l) := by
  induction l with
  | nil => exact .refl _
  | cons f rest ih =>
    simp only [placeEvent]
    split
    · exact .refl _
    · exact (ih.cons f).trans (.swap e f rest)

theorem ordered_placeEvent {α : Type} {e : Nat × α} {l : List (Nat × α)}
    (h : l.Pairwise fun a b => a.1 ≤ b.1) :
    (placeEvent e l).Pairwise fun a b => a.1 ≤ b.1 := by
  induction l with
  | nil => simp [placeEvent]
  | cons f rest ih =>
    have ⟨hf, hrest⟩ := List.pairwise_cons.1 h
    simp only [placeEvent]
    split
    next hef =>
      refine List.pairwise_cons.2 ⟨fun x hx => ?_, h⟩
      rcases List.mem_cons.1 hx with rfl | hx
      · exact hef
      · exact Nat.le_trans hef (hf x hx)
    next hef =>
      refine List.pairwise_cons.2 ⟨fun x hx => ?_, ih hrest⟩
      rcases List.mem_cons.1 ((perm_placeEvent e rest).mem_iff.1 hx) with rfl | hx
      · exact Nat.le_of_not_le hef
      · exact hf x hx

theorem ordered_inTimeOrder {α : Type} (l : List (Nat × α)) :
    (inTimeOrder l).Pairwise fun a b => a.1 ≤ b.1 := by
  induction l with
  | nil => exact .nil
  | cons e rest ih => exact ordered_placeEvent ih

end Overlay
