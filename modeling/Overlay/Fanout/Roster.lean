import Overlay.Fanout.Basic

/-!
# Named listeners that change the subscriptions

A roster holds at most one subscription under a name. When it is called, a listener notes the
message, then ends the subscriptions of some names, its own perhaps among them, and then subscribes
plain listeners under names that are free. To subscribe under a name that is taken ends the earlier
subscription after the later one has begun.
-/

namespace Overlay

/-- What a named listener does to the roster when it is called. -/
structure Habit where
  drops : List String
  adds : List String
deriving DecidableEq, Repr

def Habit.plain : Habit := ⟨[], []⟩

structure Roster where
  fanout : Fanout (String × Habit)
  /-- The subscriptions held, each name once. -/
  held : List (String × SubscriptionId)
  /-- Who has been called with what, the latest first. -/
  heard : List (String × Message)

namespace Roster

def empty (mode : Dispatch) : Roster :=
  ⟨.empty mode, [], []⟩

def holds (r : Roster) (name : String) : Bool :=
  (r.held.lookup name).isSome

/-- The subscription under a name ends, if there is one. -/
def unsubscribe (r : Roster) (name : String) : Roster :=
  match r.held.lookup name with
  | some s => { r with fanout := r.fanout.unsubscribe s, held := r.held.filter (·.1 ≠ name) }
  | none => r

def subscribe (r : Roster) (name : String) (habit : Habit) : Roster × SubscriptionId :=
  let (fanout, s) := r.fanout.subscribe (name, habit)
  let r := { r with fanout := fanout }.unsubscribe name
  ({ r with held := (name, s) :: r.held }, s)

/-- Subscribes a plain listener under a name that is free. -/
def admitPlain (r : Roster) (name : String) : Roster :=
  if r.holds name then r else (r.subscribe name .plain).1

def call (m : Message) (r : Roster) (listener : String × Habit) : Roster :=
  let r := { r with heard := (listener.1, m) :: r.heard }
  let r := listener.2.drops.foldl unsubscribe r
  listener.2.adds.foldl admitPlain r

def deliver (r : Roster) (m : Message) (audience : List (String × Habit)) : Roster :=
  audience.foldl (call m) r

def dispatch (r : Roster) (m : Message) : Roster :=
  let (fanout, audience) := r.fanout.dispatch m
  { r with fanout := fanout }.deliver m audience

def stop (r : Roster) : Roster :=
  { r with fanout := r.fanout.stop }

/-- The worker takes and delivers the oldest message. -/
def work (r : Roster) : Roster :=
  match r.fanout.take? with
  | some (m, audience, fanout) => { r with fanout := fanout }.deliver m audience
  | none => r

/-- The worker works until nothing is queued. Listeners of a roster queue nothing, so it has to work
once for every message. -/
def settle (r : Roster) : Roster :=
  r.fanout.queue.foldl (fun r _ => r.work) r

/-- What has been heard, the oldest first, and the roster with nothing heard. -/
def takeHeard (r : Roster) : List (String × Message) × Roster :=
  (r.heard.reverse, { r with heard := [] })

end Roster

end Overlay
