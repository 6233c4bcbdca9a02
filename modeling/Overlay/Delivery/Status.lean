/-!
# Delivery statuses

What is known about the delivery of a message, from the least telling to the most. The merge of
statuses is the highest of them.
-/

namespace Overlay

/-- What is known about the delivery of a message. -/
inductive DeliveryStatus where
  | unknown
  | failed
  | pending
  | delivered
deriving DecidableEq, Repr

namespace DeliveryStatus

instance : Inhabited DeliveryStatus := ⟨.unknown⟩

/-- The precedence of a status in a merge. -/
def rank : DeliveryStatus → Nat
  | .unknown => 0
  | .failed => 1
  | .pending => 2
  | .delivered => 3

def merge (a b : DeliveryStatus) : DeliveryStatus :=
  if a.rank ≤ b.rank then b else a

def name : DeliveryStatus → String
  | .unknown => "UNKNOWN"
  | .failed => "FAILED"
  | .pending => "PENDING"
  | .delivered => "DELIVERED"

def names : List (String × DeliveryStatus) :=
  [("UNKNOWN", .unknown), ("FAILED", .failed), ("PENDING", .pending), ("DELIVERED", .delivered)]

end DeliveryStatus

end Overlay
