import Overlay.Proofs.Directory
import Overlay.Proofs.Mesh.Liveness
import Overlay.Proofs.Solo.Lobby

/-!
# An engine alone on its bus

All that an engine sends which has a bus of its own comes back to it. What its agents announce,
answer and ask is not meant for it, since they are its own, and neither is a ping for one of its
contacts; so such a message is only logged, and a sign of life of its sender.

Here is all that such an engine does, told of a small state and apart from how the listeners get
their messages: what comes in leaves messages for the listeners behind, which are delivered
afterwards. To deliver a message and to hear of somebody are in no order (`deliver_touched`), so it
makes no difference whether that is done at once.
-/

namespace Overlay

/-! ## Signs of life in any order -/

namespace Directory

variable {d : Directory} {i j : Identity} {s t : Slot} {a b : Nat}

theorem modify_seen_comm : (d.modify s (·.seen a)).modify t (·.seen b) =
    (d.modify t (·.seen b)).modify s (·.seen a) := by
  simp only [modify]
  congr 1
  refine List.ext_getElem? fun k => ?_
  simp only [List.getElem?_modify]
  cases d.slots[k]? with
  | none => simp
  | some c =>
    by_cases hs : s = k <;> by_cases ht : t = k <;> simp [hs, ht, Contact.seen, Nat.max_comm a]

theorem touch_eq : d.touch i a = (d.remote? i).elim d fun s => d.modify s (·.seen a) := by
  unfold touch
  cases d.remote? i <;> rfl

theorem touch_comm : (d.touch i a).touch j b = (d.touch j b).touch i a := by
  rw [touch_eq (d := d.touch i a), touch_eq (d := d.touch j b), remote?_touch, remote?_touch]
  rw [touch_eq (d := d) (i := i), touch_eq (d := d) (i := j)]
  cases d.remote? i <;> cases d.remote? j <;> simp [modify_seen_comm]

end Directory

/-! ## The state -/

/-- What an engine that is alone on its bus depends on, and what can be observed of it. How its
listeners get their messages does not count, nor what waits for them. -/
structure Solo where
  engine : Engine
  members : List Member
  log : List Message
  /-- How many messages the log keeps. -/
  limit : Nat
  /-- What recorders have noted, the latest first. -/
  heard : List (String × Message)
  /-- The next identifier to be given to a message. -/
  supply : Nat
  /-- Where its joins wait. -/
  lobby : Lobby

namespace Solo

def member (v : Solo) (a : AgentId) : Member :=
  v.members.getD a default

def fresh (v : Solo) : Uuid × Solo := (.ofNat v.supply, { v with supply := v.supply + 1 })

def touched (v : Solo) (i : Identity) (now : Nat) : Solo :=
  { v with engine := v.engine.touched i now }

def record (v : Solo) (m : Message) : Solo :=
  { v with log := (v.log ++ [m]).drop (v.log.length + 1 - v.limit) }

def inspect (v : Solo) (m : Message) : Solo :=
  { v with lobby := v.lobby.inspect m }

/-- A message is sent, and comes back. -/
def echo (v : Solo) (m : Message) : Solo :=
  ((v.record m).inspect m).touched m.sender v.engine.clock

def call (m : Message) (v : Solo) : Hearer → Solo
  | .recorder name => { v with heard := (name, m) :: v.heard }
  | .responder a cloud =>
    match (v.member a).agent.reply? cloud v.fresh.1 m, (v.member a).standing with
    | some reply, .joined _ _ => v.fresh.2.echo reply
    | _, _ => v.fresh.2

def deliver (v : Solo) (m : Message) : Solo :=
  v.engine.fanout.audience.foldl (call m) v

/-- All listeners get the messages that wait for them. -/
def settle (v : Solo) (waiting : List Message) : Solo :=
  waiting.foldl deliver v

/-- What follows from a message that comes in, and what it leaves behind for the listeners. -/
def process (v : Solo) (m : Message) : Solo × List Message :=
  if v.engine.admits m then
    match v.engine.reaction m with
    | .nothing => (v.touched m.sender v.engine.clock, [])
    | .membership change =>
      ({ v with engine := v.engine.changed m.sender change v.engine.clock }.touched m.sender
        v.engine.clock, [])
    | .enquiry =>
      let question := Message.discovery v.fresh.1 v.engine.identity m.sender
      ((v.fresh.2.echo question).touched m.sender v.engine.clock,
        if v.engine.admits question then [question] else [])
    | .dispatch => (v.touched m.sender v.engine.clock, [m])
  else (v.touched m.sender v.engine.clock, [])

/-- A message comes in. It confirms what it confirms before anything follows from it. -/
def take (v : Solo) (m : Message) : Solo × List Message :=
  (v.inspect m).process m

def evict (v : Solo) (c : Identity × Slot) : Solo × List Message :=
  match v.engine.evicted? c.1 c.2 with
  | some engine => ({ v with engine := engine }.fresh.2, [.fault v.fresh.1 v.engine.identity c.1])
  | none => (v, [])

def probe (v : Solo) (c : Identity × Slot) : Solo × List Message :=
  if v.engine.isQuiet c.2 then
    (v.fresh.2.echo (.ping v.fresh.1 v.engine.identity c.1)).evict c
  else (v, [])

variable {v w : Solo} {m r : Message} {i j : Identity} {now : Nat} {l : Hearer} {a : AgentId}
  {waiting : List Message}

/-! ## What stays -/

@[simp] theorem fanout_touched : (v.touched i now).engine.fanout = v.engine.fanout := rfl

/-- Who is registered, and who listens, is the same, and nothing but messages has come to the lobby.
-/
structure Stays (v w : Solo) : Prop where
  members : w.members = v.members
  locals : w.engine.directory.locals = v.engine.directory.locals
  fanout : w.engine.fanout = v.engine.fanout
  clock : w.engine.clock = v.engine.clock
  lobby : ∃ ms : List Message, w.lobby = ms.foldl Lobby.inspect v.lobby

theorem Stays.refl (v : Solo) : v.Stays v := ⟨rfl, rfl, rfl, rfl, [], rfl⟩

theorem Stays.trans {u : Solo} (huv : u.Stays v) (hvw : v.Stays w) : u.Stays w where
  members := hvw.members.trans huv.members
  locals := hvw.locals.trans huv.locals
  fanout := hvw.fanout.trans huv.fanout
  clock := hvw.clock.trans huv.clock
  lobby := by
    obtain ⟨ms, hms⟩ := huv.lobby
    obtain ⟨ns, hns⟩ := hvw.lobby
    exact ⟨ms ++ ns, by rw [hns, hms, List.foldl_append]⟩

theorem stays_touched (i : Identity) (now : Nat) : v.Stays (v.touched i now) :=
  ⟨rfl, Directory.locals_touch, rfl, rfl, [], rfl⟩

theorem stays_record (m : Message) : v.Stays (v.record m) := ⟨rfl, rfl, rfl, rfl, [], rfl⟩

theorem stays_inspect (m : Message) : v.Stays (v.inspect m) := ⟨rfl, rfl, rfl, rfl, [m], rfl⟩

theorem stays_echo (m : Message) : v.Stays (v.echo m) :=
  ⟨rfl, Directory.locals_touch, rfl, rfl, [m], rfl⟩

theorem stays_fresh : v.Stays v.fresh.2 := ⟨rfl, rfl, rfl, rfl, [], rfl⟩

theorem stays_call : v.Stays (v.call m l) := by
  cases l with
  | recorder name => exact ⟨rfl, rfl, rfl, rfl, [], rfl⟩
  | responder a cloud =>
    simp only [call]
    split
    · exact stays_fresh.trans (stays_echo _)
    · exact stays_fresh

theorem stays_foldl_call (audience : List Hearer) : v.Stays (audience.foldl (call m) v) := by
  induction audience generalizing v with
  | nil => exact .refl v
  | cons l audience ih => exact stays_call.trans ih

theorem stays_deliver : v.Stays (v.deliver m) := stays_foldl_call _

theorem stays_settle : v.Stays (v.settle waiting) := by
  unfold settle
  induction waiting generalizing v with
  | nil => exact .refl v
  | cons m waiting ih => exact stays_deliver.trans ih

theorem stays_changed (change : MembershipChange) :
    v.Stays { v with engine := v.engine.changed i change now } := by
  cases change with
  | arrival eps => exact ⟨rfl, Directory.locals_announce, rfl, rfl, [], rfl⟩
  | departure => exact ⟨rfl, rfl, rfl, rfl, [], rfl⟩

theorem stays_process : v.Stays (v.process m).1 := by
  unfold process
  split
  · split
    · exact stays_touched _ _
    · exact (stays_changed _).trans (stays_touched _ _)
    · exact (stays_fresh.trans (stays_echo _)).trans (stays_touched _ _)
    · exact stays_touched _ _
  · exact stays_touched _ _

theorem stays_take : v.Stays (v.take m).1 :=
  (stays_inspect m).trans stays_process

theorem evicted?_eq {x y : Engine} {c : Identity × Slot} (h : x.evicted? c.1 c.2 = some y) :
    y = { x with directory := x.directory.removeRemote c.1 } := by
  unfold Engine.evicted? at h
  split at h
  · exact (Option.some.inj h).symm
  · cases h

theorem stays_evict {c : Identity × Slot} : v.Stays (v.evict c).1 := by
  unfold evict
  split
  · next engine hevicted =>
    obtain rfl := evicted?_eq hevicted
    exact ⟨rfl, rfl, rfl, rfl, [], rfl⟩
  · exact .refl v

theorem stays_probe {c : Identity × Slot} : v.Stays (v.probe c).1 := by
  unfold probe
  split
  · exact (stays_fresh.trans (stays_echo _)).trans stays_evict
  · exact .refl v

/-! ## Delivering and hearing of somebody -/

theorem touched_comm {a b : Nat} : (v.touched i a).touched j b = (v.touched j b).touched i a := by
  simp only [touched, Engine.touched, Directory.touch_comm (i := i)]

theorem echo_touched : (v.touched i now).echo m = (v.echo m).touched i now := by
  unfold echo
  exact touched_comm (v := (v.record m).inspect m)

theorem call_touched : (v.touched i now).call m l = (v.call m l).touched i now := by
  cases l with
  | recorder name => rfl
  | responder a cloud =>
    have hmember : (v.touched i now).member a = v.member a := rfl
    have hfresh : (v.touched i now).fresh = (v.fresh.1, v.fresh.2.touched i now) := rfl
    simp only [call, hmember, hfresh]
    split
    · exact echo_touched
    · rfl

/-- It makes no difference whether a message is delivered before or after somebody is heard of. -/
theorem deliver_touched : (v.touched i now).deliver m = (v.deliver m).touched i now := by
  simp only [deliver, fanout_touched]
  generalize v.engine.fanout.audience = audience
  induction audience generalizing v with
  | nil => rfl
  | cons l audience ih =>
    rw [List.foldl_cons, List.foldl_cons, call_touched]
    exact ih

theorem settle_touched : (v.touched i now).settle waiting = (v.settle waiting).touched i now := by
  unfold settle
  induction waiting generalizing v with
  | nil => rfl
  | cons m waiting ih =>
    rw [List.foldl_cons, List.foldl_cons, deliver_touched]
    exact ih

end Solo

end Overlay
