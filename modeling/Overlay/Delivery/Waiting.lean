import Overlay.Delivery.Receipt
import Overlay.Timer

/-!
# Waiting for a delivery

A caller waits on a receipt for a budget of time, on a clock that shows whole milliseconds and on
which a timer fires at the first of them that is not before its deadline. What happens meanwhile is
a history: the status that a gateway's receipt has at first, and its changes. Waiting is a function
of the histories, the time at which it starts and the budget, and it ends at a time of its own.

A joint receipt waits on its members one after the other, each for an even share of the budget, the
next from the moment at which the one before it gave up.
-/

namespace Overlay

/-- A status over time: the first one, and the changes in the order in which they are made. -/
structure History where
  first : DeliveryStatus
  changes : List (Nat × DeliveryStatus)
deriving DecidableEq, Repr

/-- How a wait ended, and when. -/
structure WaitEnd where
  delivered : Bool
  time : Nat
deriving DecidableEq, Repr

namespace History

def statusAt (h : History) (time : Nat) : DeliveryStatus :=
  h.changes.foldl (fun s c => if c.1 ≤ time then c.2 else s) h.first

/-- The first moment from a start to a deadline at which the message is delivered. A status is
delivered for the first time either at the start or when it changes. -/
def firstDelivery? (h : History) (start deadline : Nat) : Option Nat :=
  ((start :: h.changes.map Prod.fst).filter fun t =>
    start ≤ t && t ≤ deadline && h.statusAt t == .delivered).min?

/-- Waits for a delivery for a number of nanoseconds (`GatewayReceipt::wait_for_delivery`). -/
def wait (h : History) (start nanos : Nat) : WaitEnd :=
  match h.firstDelivery? start (timerTime start nanos) with
  | some time => ⟨true, time⟩
  | none => ⟨false, timerTime start nanos⟩

end History

namespace Receipt

/-- An even share of a budget for a number of members, which is kept in 32 bits. -/
def evenShare (nanos count : Nat) : Nat :=
  nanos / (count % 4294967296)

mutual

/-- Waits for a delivery for a number of nanoseconds, whatever kind of receipt it is. -/
def wait : Receipt History → Nat → Nat → WaitEnd
  | .gate _ _ history, start, nanos => history.wait start nanos
  | .joint _ members, start, nanos =>
    match members with
    | [] => ⟨false, start⟩
    | _ =>
      let last := waitEach members start (evenShare nanos members.length)
      if last.delivered then last
      else ⟨statusOf .unknown (mapAll (·.statusAt last.time) members) == .delivered, last.time⟩

/-- Waits on receipts one after the other, for the same number of nanoseconds each, until one of
them is delivered (`MultiReceipt::wait_for_delivery`). -/
def waitEach : List (Receipt History) → Nat → Nat → WaitEnd
  | [], start, _ => ⟨false, start⟩
  | r :: rest, start, nanos =>
    let done := r.wait start nanos
    if done.delivered then done else waitEach rest done.time nanos

end

end Receipt

end Overlay
