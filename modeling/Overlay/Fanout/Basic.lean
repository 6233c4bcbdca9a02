import Overlay.Message.Basic
import Overlay.Settings.Basic

/-!
# Listeners and the messages for them

A fanout hands every message to all listeners that are subscribed when the message is delivered, in
the order of their subscriptions. Subscriptions are numbered and no number is used twice. Whoever is
subscribed or unsubscribed while a message is being delivered makes no difference to that message.

Inline, a message is delivered at once. With a worker it is queued, and the worker takes one message
after the other; after the queue has been closed what is in it is still delivered, and nothing comes
in any more.
-/

namespace Overlay

abbrev SubscriptionId := Nat

/-- Subscribed listeners, and messages that wait for the worker (`Multicaster`). -/
structure Fanout (ℓ : Type) where
  mode : Dispatch
  /-- The listeners in the order of their subscriptions. -/
  listeners : List (SubscriptionId × ℓ)
  /-- The number of the next subscription. -/
  next : SubscriptionId
  /-- What the worker has not taken yet, the oldest first. -/
  queue : List Message
  /-- Whether the queue takes messages. -/
  accepting : Bool

namespace Fanout

def empty {ℓ : Type} (mode : Dispatch) : Fanout ℓ :=
  ⟨mode, [], 0, [], true⟩

instance {ℓ : Type} : Inhabited (Fanout ℓ) := ⟨empty .inline⟩

def size {ℓ : Type} (f : Fanout ℓ) : Nat :=
  f.listeners.length

/-- Who would get a message that is delivered now (`ListenerSet::snapshot`). -/
def audience {ℓ : Type} (f : Fanout ℓ) : List ℓ :=
  f.listeners.map Prod.snd

/-- One more listener, and the number of its subscription (`Multicaster::subscribe`). -/
def subscribe {ℓ : Type} (f : Fanout ℓ) (listener : ℓ) : Fanout ℓ × SubscriptionId :=
  ({ f with listeners := f.listeners ++ [(f.next, listener)], next := f.next + 1 }, f.next)

/-- A subscription ends (`ListenerSet::remove`). -/
def unsubscribe {ℓ : Type} (f : Fanout ℓ) (s : SubscriptionId) : Fanout ℓ :=
  { f with listeners := f.listeners.filter (·.1 ≠ s) }

/-- Hands in a message (`Multicaster::dispatch`). The second part is who gets it at once. -/
def dispatch {ℓ : Type} (f : Fanout ℓ) (m : Message) : Fanout ℓ × List ℓ :=
  match f.mode with
  | .inline => (f, f.audience)
  | .worker => (if f.accepting then { f with queue := f.queue ++ [m] } else f, [])

/-- The worker takes the oldest message, for those who are subscribed by then. -/
def take? {ℓ : Type} (f : Fanout ℓ) : Option (Message × List ℓ × Fanout ℓ) :=
  match f.queue with
  | [] => none
  | m :: rest => some (m, f.audience, { f with queue := rest })

/-- Closes the queue (`Multicaster::stop`). -/
def stop {ℓ : Type} (f : Fanout ℓ) : Fanout ℓ :=
  { f with accepting := false }

def outline (s : SubscriptionId) : String :=
  "Subscription \x7b id: " ++ Radix.decimal s ++ " \x7d"

end Fanout

end Overlay
