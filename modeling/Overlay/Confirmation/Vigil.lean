import Overlay.Confirmation.Board
import Overlay.Timer

/-!
# Waiting on several sessions at once

Waits that begin together and have the same time to go, while messages come in at known times, in
whatever order they are announced. The waits begin in the order in which they are listed. A message
at the very end of the time comes too late.
-/

namespace Overlay

/-- Waits under way, named by their places, and how those ended that have. -/
structure Vigil where
  board : Board Nat
  /-- Whether a wait was confirmed, and after how long; none as long as it goes on. -/
  ends : List (Option (Bool × Nat))

namespace Vigil

def begin (v : Vigil) (s : SessionId) : Vigil :=
  let (board, done) := v.board.wait s v.ends.length
  ⟨board, v.ends ++ [if done then some (true, 0) else none]⟩

def receive (criterion : Criterion) (v : Vigil) (arrival : Nat × Message) : Vigil :=
  let (board, released) := v.board.receive criterion arrival.2
  ⟨board, released.foldl (fun ends w => ends.set w (some (true, arrival.1))) v.ends⟩

/-- The waits that still go on end without confirmation. -/
def expire (v : Vigil) (sessions : List SessionId) (time : Nat) : Vigil :=
  ⟨sessions.zipIdx.foldl (fun board w => board.giveUp w.1 w.2) v.board,
    v.ends.map fun e => some (e.getD (false, time))⟩

/-- Waits on the sessions for a time, while messages come in; those that come later come in too. -/
def run (board : Board Nat) (criterion : Criterion) (sessions : List SessionId) (timeout : Nat)
    (arrivals : List (Nat × Message)) : Board Nat × List (Bool × Nat) :=
  let arrivals := inTimeOrder arrivals
  let begun := sessions.foldl begin ⟨board, []⟩
  let ended := ((arrivals.takeWhile (·.1 < timeout)).foldl (receive criterion) begun).expire
    sessions timeout
  let after := (arrivals.dropWhile (·.1 < timeout)).foldl (receive criterion) ended
  (after.board, after.ends.map fun e => e.getD (false, timeout))

end Vigil

end Overlay
