import Overlay.Delivery.Status
import Overlay.Uuid

/-!
# Receipts

What a sender holds of a message that it has handed over. One gateway's receipt carries the status
of the message at that gateway; a joint receipt stands for several receipts, which may be joint ones
themselves. A receipt is a tree over whatever its leaves hold: statuses, or, while somebody waits,
statuses as they change over time.
-/

namespace Overlay

/-- What a sender holds of a message: one gateway's receipt (`GatewayReceipt`), or several receipts
together (`MultiReceipt`). -/
inductive Receipt (σ : Type) where
  | gate (message : Uuid) (name : String) (state : σ)
  | joint (message : Uuid) (members : List (Receipt σ))

namespace Receipt

def message {σ : Type} : Receipt σ → Uuid
  | .gate message _ _ => message
  | .joint message _ => message

def members {σ : Type} : Receipt σ → List (Receipt σ)
  | .gate _ _ _ => []
  | .joint _ members => members

mutual

def map {σ τ : Type} (f : σ → τ) : Receipt σ → Receipt τ
  | .gate message name state => .gate message name (f state)
  | .joint message members => .joint message (mapAll f members)

def mapAll {σ τ : Type} (f : σ → τ) : List (Receipt σ) → List (Receipt τ)
  | [] => []
  | r :: rest => r.map f :: mapAll f rest

end

mutual

/-- The status of a receipt: that of its gateway, or the merge of its members' statuses
(`MultiReceipt::status`). -/
def status : Receipt DeliveryStatus → DeliveryStatus
  | .gate _ _ state => state
  | .joint _ members => statusOf .unknown members

/-- The merge of what is known already with the statuses of more receipts. Once one of them is
delivered, nothing is above it and the rest is not asked. -/
def statusOf (known : DeliveryStatus) : List (Receipt DeliveryStatus) → DeliveryStatus
  | [] => known
  | r :: rest => if r.status = .delivered then .delivered else statusOf (known.merge r.status) rest

end

mutual

/-- The name of the gateway that delivered the message, of the first if there are several; as long
as none has, the names of all of them, joined by plus signs (`MultiReceipt::gate`). -/
def gateway : Receipt DeliveryStatus → String
  | .gate _ name _ => name
  | .joint _ members =>
    match deliverer? members with
    | some name => name
    | none => "+".intercalate (gateways members)

/-- The gateway of the first delivered receipt. -/
def deliverer? : List (Receipt DeliveryStatus) → Option String
  | [] => none
  | r :: rest => if r.status = .delivered then some r.gateway else deliverer? rest

def gateways : List (Receipt DeliveryStatus) → List String
  | [] => []
  | r :: rest => r.gateway :: gateways rest

end

def display (r : Receipt DeliveryStatus) : String :=
  r.status.name ++ ":" ++ String.ofList r.message.hyphenated

/-- The joint receipt of a message with one member more (`MultiReceipt::add`). -/
def add {σ : Type} (r extra : Receipt σ) : Receipt σ :=
  .joint r.message (r.members ++ [extra])

end Receipt

end Overlay
