import Overlay.Delivery.Waiting

/-!
# Receipts that are still changing

Gateways go on reporting after a send has returned. A ledger keeps the joint receipt of one message
with a numbered cell for every gateway's receipt in it, and the current status of every cell, so
that a report changes the receipt wherever it hangs in the tree.
-/

namespace Overlay

/-- A joint receipt over numbered cells, and the current status of every cell. -/
structure Ledger where
  receipt : Receipt Nat
  /-- The statuses, by the number of the cell. -/
  statuses : List DeliveryStatus
  /-- The gateways that have a cell, the latest first. -/
  cells : List (String × Nat)

namespace Ledger

def empty (message : Uuid) : Ledger :=
  ⟨.joint message [], [], []⟩

def statusOf (l : Ledger) (cell : Nat) : DeliveryStatus :=
  l.statuses.getD cell .unknown

def current (l : Ledger) : Receipt DeliveryStatus :=
  l.receipt.map l.statusOf

/-- The cell of a gateway, the latest if it has several. -/
def cell? (l : Ledger) (gateway : String) : Option Nat :=
  l.cells.lookup gateway

def add (l : Ledger) (gateway : String) (status : DeliveryStatus) : Ledger :=
  let cell := l.statuses.length
  ⟨l.receipt.add (.gate l.receipt.message gateway cell), l.statuses ++ [status],
    (gateway, cell) :: l.cells⟩

/-- The receipt becomes the only member of a new joint receipt. -/
def wrap (l : Ledger) : Ledger :=
  { l with receipt := .joint l.receipt.message [l.receipt] }

/-- A cell changes its status (`GatewayReceipt::update`). -/
def report (l : Ledger) (cell : Nat) (status : DeliveryStatus) : Ledger :=
  { l with statuses := l.statuses.set cell status }

/-- What will happen to a cell, given all coming reports, each with its time. -/
def history (l : Ledger) (coming : List (Nat × Nat × DeliveryStatus)) (cell : Nat) : History :=
  ⟨l.statusOf cell, ((inTimeOrder coming).filter (·.2.1 = cell)).map fun r => (r.1, r.2.2)⟩

/-- How a wait ends that starts now, at time zero: on the whole receipt, or on one cell. -/
def wait (l : Ledger) (coming : List (Nat × Nat × DeliveryStatus)) (cell? : Option Nat)
    (nanos : Nat) : WaitEnd :=
  match cell? with
  | some cell => (l.history coming cell).wait 0 nanos
  | none => (l.receipt.map (l.history coming)).wait 0 nanos

def afterAll (l : Ledger) (coming : List (Nat × Nat × DeliveryStatus)) : Ledger :=
  (inTimeOrder coming).foldl (fun l r => l.report r.2.1 r.2.2) l

end Ledger

end Overlay
