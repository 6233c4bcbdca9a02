import Overlay.Engine
import Overlay.Proofs.Directory

/-!
# One engine between its waits

An engine waits in three places: a call that processes a message waits while the listeners run or
while the question to an unknown sender is being sent, and a liveness pass waits while a ping is
being sent. What it does between two waits is one move, made of the functions of `Overlay.Engine`.
While one call or pass waits all others may go on, so a run is any sequence of moves.

A call reads the clock when it begins and touches its sender when it ends. A pass works through the
contacts that were known when it began, in any order, and looks at each contact twice: before its
ping and after it. Calls and passes are kept in the order in which they began, also when they are
over, so a moment remembers which calls have begun and what became of them.
-/

namespace Overlay

namespace Engine

/-- The engine after the change of membership that a message announces, if it is meant for this
process and announces one. -/
def informed (e : Engine) (m : Message) : Engine :=
  if e.admits m then
    match e.reaction m with
    | .membership change => e.changed m.sender change e.clock
    | _ => e
  else e

/-- Whether the call that processes a message has to wait before it touches the sender. -/
def lingers (e : Engine) (m : Message) : Bool :=
  e.admits m &&
    match e.reaction m with
    | .enquiry | .dispatch => true
    | _ => false

end Engine

/-- A call that processes a message. -/
structure Call where
  sender : Identity
  /-- What the clock showed when it began. -/
  began : Nat
  /-- None while it is under way; then the slot that it has touched, if its sender was known. -/
  ended : Option (Option Slot)
deriving DecidableEq

structure Pass where
  /-- The contact whose ping is being sent. -/
  asked : Option (Identity × Slot)
  /-- The contacts that it has still to look at. -/
  rest : List (Identity × Slot)

/-- An engine, with all calls and passes that have begun so far. -/
structure Moment where
  engine : Engine
  calls : List Call
  passes : List Pass

inductive Move where
  /-- A call begins to process a message. -/
  | receive (message : Message)
  /-- A call that has waited comes to its end. -/
  | conclude (call : Nat)
  /-- A pass begins, and will look at the contacts in the given order. -/
  | beginPass (order : List (Identity × Slot))
  /-- A pass looks at its next contact, and begins to send a ping if that is quiet. -/
  | look (pass : Nat)
  /-- The ping of a pass has been sent, and the pass looks at the contact again. -/
  | resolve (pass : Nat)
  /-- A join registers an agent. -/
  | register (identity : Identity) (agent : AgentId)
  /-- A leave removes whoever is registered under an identity. -/
  | unregister (identity : Identity)
  /-- A dropped join removes the registration of its agent. -/
  | withdraw (identity : Identity) (agent : AgentId)
  | setClock (now : Nat)
  /-- A shutdown forgets everybody. -/
  | forget
  /-- Listeners, the queue, the time of the next pass and the way in change. -/
  | tend (fanout : Fanout Hearer) (nextPass : Option Nat) (present : Bool)

namespace Moment

def withDirectory (w : Moment) (d : Directory) : Moment :=
  { w with engine := { w.engine with directory := d } }

/-- A call begins, and is over at once unless it has to wait. -/
def receive (w : Moment) (m : Message) : Moment :=
  if w.engine.lingers m then
    { w with calls := w.calls ++ [⟨m.sender, w.engine.clock, none⟩] }
  else
    let e := w.engine.informed m
    { w with
      engine := e.touched m.sender w.engine.clock
      calls := w.calls ++ [⟨m.sender, w.engine.clock, some (e.directory.remote? m.sender)⟩] }

/-- The moment after a move, if the move can be made. -/
def move? (w : Moment) : Move → Option Moment
  | .receive m => some (w.receive m)
  | .conclude c =>
    match w.calls[c]? with
    | some ⟨sender, began, none⟩ =>
      some { w with
        engine := w.engine.touched sender began
        calls := w.calls.set c ⟨sender, began, some (w.engine.directory.remote? sender)⟩ }
    | _ => none
  | .beginPass order =>
    if order.Perm w.engine.directory.remotes.toList then
      some { w with passes := w.passes ++ [⟨none, order⟩] }
    else none
  | .look p =>
    match w.passes[p]? with
    | some ⟨none, c :: rest⟩ =>
      some { w with passes := w.passes.set p ⟨if w.engine.isQuiet c.2 then some c else none, rest⟩ }
    | _ => none
  | .resolve p =>
    match w.passes[p]? with
    | some ⟨some c, rest⟩ =>
      some { w with
        engine := (w.engine.evicted? c.1 c.2).getD w.engine
        passes := w.passes.set p ⟨none, rest⟩ }
    | _ => none
  | .register i a => (w.engine.directory.insertLocal? i a).map w.withDirectory
  | .unregister i => some (w.withDirectory (w.engine.directory.removeLocal i))
  | .withdraw i a => some (w.withDirectory (w.engine.directory.removeLocalAgent i a))
  | .setClock now => some { w with engine := { w.engine with clock := now } }
  | .forget => some (w.withDirectory w.engine.directory.clear)
  | .tend fanout nextPass present =>
    some { w with engine :=
      { w.engine with fanout := fanout, nextPass := nextPass, present := present } }

/-- The moment after several moves, if they can be made. -/
def run? (w : Moment) : List Move → Option Moment
  | [] => some w
  | mv :: rest => (w.move? mv).bind fun w => w.run? rest

/-- Nothing has happened yet, and the engine knows nobody. -/
structure IsFresh (w : Moment) : Prop where
  directory : w.engine.directory = .empty
  calls : w.calls = []
  passes : w.passes = []

variable {w w' v : Moment} {mv : Move} {moves rest : List Move}

theorem run?_cons (h : w.run? (mv :: rest) = some w') :
    ∃ v, w.move? mv = some v ∧ v.run? rest = some w' :=
  Option.bind_eq_some_iff.1 h

theorem run?_append :
    w.run? (moves ++ rest) = (w.run? moves).bind fun v => v.run? rest := by
  induction moves generalizing w with
  | nil => rfl
  | cons mv moves ih =>
    rw [List.cons_append, run?, run?]
    cases w.move? mv with
    | none => rfl
    | some v => exact ih

theorem run?_concat (hrun : w.run? moves = some v) (hm : v.move? mv = some w') :
    w.run? (moves ++ [mv]) = some w' := by
  rw [run?_append, hrun, Option.bind_some, run?, hm]
  rfl

end Moment

end Overlay
