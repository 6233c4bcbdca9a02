import Overlay.Confirmation.Criterion
import Overlay.Identity.Register

/-!
# Sessions that wait for a confirmation

A join opens a session before it says anything, so that no confirmation can come too early. A
session is the one that counts for its agent until another is opened for that agent or it is
released.

A message that meets the criterion for an agent confirms the session that counts: it releases the
waiter who has waited longest, and if nobody waits it leaves one confirmation behind for the next
who will. It never leaves two. Sessions of other agents do not notice.
-/

namespace Overlay

/-- The number of a session, never used again. -/
abbrev SessionId := Nat

/-- A session, with the names of those who wait on it (`Waiter`). -/
structure Session (ω : Type) where
  agent : Identity
  /-- Whether an unused confirmation is at hand. -/
  confirmed : Bool
  /-- Who waits, the longest waiting first. -/
  waiters : List ω

namespace Session

instance {ω : Type} : Inhabited (Session ω) := ⟨⟨default, false, []⟩⟩

/-- The session after a confirmation, and whom it releases (`Notify::notify_one`). -/
def confirm {ω : Type} (s : Session ω) : Session ω × Option ω :=
  match s.waiters with
  | [] => ({ s with confirmed := true }, none)
  | w :: rest => ({ s with waiters := rest }, some w)

end Session

/-- All sessions that were ever opened, and those that count (`JoinSynchronizer`). -/
structure Board (ω : Type) where
  /-- By their numbers. -/
  sessions : List (Session ω)
  /-- The session that counts for an agent. -/
  current : Register SessionId

namespace Board

def empty {ω : Type} : Board ω :=
  ⟨[], .empty⟩

instance {ω : Type} : Inhabited (Board ω) := ⟨empty⟩

def session {ω : Type} (b : Board ω) (s : SessionId) : Session ω :=
  b.sessions.getD s default

/-- How many agents have a session that counts (`JoinSynchronizer::pending`). -/
def pending {ω : Type} (b : Board ω) : Nat :=
  b.current.size

/-- Opens a session for an agent (`JoinSynchronizer::start`). It counts from now on, whatever
counted before. -/
def start {ω : Type} (b : Board ω) (agent : Identity) : Board ω × SessionId :=
  (⟨b.sessions ++ [⟨agent, false, []⟩], b.current.enter agent b.sessions.length⟩, b.sessions.length)

/-- A session counts no longer, if it does now (`JoinSynchronizer::remove`). -/
def release {ω : Type} (b : Board ω) (s : SessionId) : Board ω :=
  { b with current := b.current.eraseIf (b.session s).agent s }

def confirm {ω : Type} (b : Board ω) (s : SessionId) : Board ω × Option ω :=
  let (next, released) := (b.session s).confirm
  ({ b with sessions := b.sessions.set s next }, released)

def confirmAll {ω : Type} (b : Board ω) : List SessionId → Board ω × List ω
  | [] => (b, [])
  | s :: rest =>
    let (b, released) := b.confirm s
    let (b, more) := b.confirmAll rest
    (b, released.toList ++ more)

/-- The sessions that a message confirms. -/
def confirmedBy {ω : Type} (b : Board ω) (criterion : Criterion) (m : Message) : List SessionId :=
  (b.current.toList.filter fun c => criterion m c.1).map Prod.snd

/-- A message comes in (`JoinSynchronizer::process`). -/
def receive {ω : Type} (b : Board ω) (criterion : Criterion) (m : Message) : Board ω × List ω :=
  b.confirmAll (b.confirmedBy criterion m)

/-- Somebody begins to wait (`JoinSynchronizer::wait`). If a confirmation is at hand, it is used up
and the wait is over. -/
def wait {ω : Type} (b : Board ω) (s : SessionId) (w : ω) : Board ω × Bool :=
  let old := b.session s
  if old.confirmed then
    ({ b with sessions := b.sessions.set s { old with confirmed := false } }, true)
  else ({ b with sessions := b.sessions.set s { old with waiters := old.waiters ++ [w] } }, false)

def giveUp {ω : Type} [BEq ω] (b : Board ω) (s : SessionId) (w : ω) : Board ω :=
  let old := b.session s
  { b with sessions := b.sessions.set s { old with waiters := old.waiters.filter (· != w) } }

end Board

end Overlay
