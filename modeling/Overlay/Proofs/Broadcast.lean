import Mathlib.Data.List.DropRight
import Mathlib.Data.List.Forall2
import Overlay.Proofs.Bus
import Overlay.Proofs.History

/-!
# The bus as a broadcast log

Sockets, their flags and listeners, and the log of a bus change independently of each other, in any
order. Yet all that can be observed is told by one sequence, that of the messages that were taken.
Each of them goes to whoever is listening at an open socket at that moment, and the log is the end
of the sequence since it was emptied (`follows_broadcasts`).

Listeners only listen here, they do not use the bus themselves.
-/

namespace Overlay

/-- A bus, and what its listeners have got. -/
structure Exchange (ℓ : Type) where
  bus : Bus ℓ
  /-- Who got what, the oldest first. -/
  heard : List (ℓ × Message)

namespace Exchange

variable {ℓ : Type}

inductive Event (ℓ : Type) where
  | attach (name : String)
  | listen (socket : SocketId) (listener : ℓ)
  | setFailing (socket : SocketId) (failing : Bool)
  | close (socket : SocketId)
  | send (socket : SocketId) (message : Message)
  | inject (message : Message)
  | clearLog

namespace Event

def socket? : Event ℓ → Option SocketId
  | listen p _ | setFailing p _ | close p | send p _ => some p
  | _ => none

def message? : Event ℓ → Option Message
  | send _ m | inject m => some m
  | _ => none

end Event

/-- A bus without sockets, whose log keeps a number of messages. -/
def fresh (limit : Nat) : Exchange ℓ :=
  ⟨.empty limit, []⟩

def after (w : Exchange ℓ) : Event ℓ → Exchange ℓ
  | .attach name => { w with bus := (w.bus.attach name).1 }
  | .listen p l => { w with bus := w.bus.listen p l }
  | .setFailing p failing => { w with bus := w.bus.setFailing p failing }
  | .close p => { w with bus := w.bus.close p }
  | .send p m => ⟨(w.bus.send p m).1, w.heard ++ (w.bus.send p m).2.deliveries⟩
  | .inject m => { w with heard := w.heard ++ (w.bus.inject m).deliveries }
  | .clearLog => { w with bus := w.bus.clearLog }

def step? (w : Exchange ℓ) (x : Event ℓ) : Option (Exchange ℓ) :=
  if ∀ p ∈ x.socket?, p < w.bus.sockets.length then some (w.after x) else none

def run? (w : Exchange ℓ) (events : List (Event ℓ)) : Option (Exchange ℓ) :=
  events.foldlM step? w

def heardBy [DecidableEq ℓ] (w : Exchange ℓ) (l : ℓ) : List Message :=
  (w.heard.filter (·.1 = l)).map (·.2)

/-! ## What a history tells -/

namespace Event

def closes (p : SocketId) : Event ℓ → Bool
  | close q => q == p
  | _ => false

/-- What the failing flag of a socket is set to. -/
def sets? (p : SocketId) : Event ℓ → Option Bool
  | setFailing q failing => if q = p then some failing else none
  | _ => none

/-- Whether a listener is registered at a socket that passes a test. -/
def registers [DecidableEq ℓ] (l : ℓ) (at? : SocketId → Bool) : Event ℓ → Bool
  | listen p k => k == l && at? p
  | _ => false

def clears : Event ℓ → Bool
  | clearLog => true
  | _ => false

end Event

def closed (events : List (Event ℓ)) (p : SocketId) : Bool :=
  events.any (Event.closes p)

/-- Whether a socket has been set to fail, the last time that this was set. -/
def failing (events : List (Event ℓ)) (p : SocketId) : Bool :=
  (events.filterMap (Event.sets? p)).getLastD false

/-- How often a listener is registered at sockets that are open. -/
def registrations [DecidableEq ℓ] (events : List (Event ℓ)) (l : ℓ) : Nat :=
  events.countP (Event.registers l fun p => !closed events p)

/-- The message that the bus takes from a gateway after some events. -/
def sent? (past : List (Event ℓ)) : Event ℓ → Option Message
  | .send p m => if closed past p || failing past p then none else some m
  | _ => none

/-- The message that the bus carries after some events, from a gateway or from outside. -/
def carried? (past : List (Event ℓ)) : Event ℓ → Option Message
  | .inject m => some m
  | x => sent? past x

/-- What a listener is to get: of each message that is carried one for each registration. -/
def due [DecidableEq ℓ] (l : ℓ) (events : List (Event ℓ)) : List Message :=
  (moments [] events).flatMap fun x =>
    (carried? x.1 x.2.1).toList.flatMap (List.replicate (registrations x.1 l))

/-- The messages that have been sent and not been cleared since. -/
def kept (events : List (Event ℓ)) : List Message :=
  (moments [] events).filterMap fun x =>
    if x.2.2.any Event.clears then none else sent? x.1 x.2.1

/-- What can be read of a message after it has been written is equal to it. -/
def Survives (m : Message) : Prop :=
  ∃ n, Bus.carried m = .ok n ∧ n.equal m

variable {w w' : Exchange ℓ} {events pre : List (Event ℓ)} {x : Event ℓ} {l : ℓ} {m : Message}
  {p : SocketId} {limit : Nat}

theorem run?_concat : w.run? (events ++ [x]) = (w.run? events).bind fun v => v.step? x := by
  simp [run?, List.foldlM_append]

theorem step?_eq_some :
    w.step? x = some w' ↔ (∀ p ∈ x.socket?, p < w.bus.sockets.length) ∧ w.after x = w' := by
  simp [step?]

/-! ## One more event -/

theorem closed_concat :
    closed (events ++ [x]) p = (closed events p || x.closes p) := by
  simp [closed]

theorem failing_concat : failing (events ++ [x]) p = (x.sets? p).getD (failing events p) := by
  cases h : x.sets? p <;> simp [failing, List.filterMap_append, h, List.getLastD_eq_getLast?]

section

variable [DecidableEq ℓ]

theorem due_concat : due l (events ++ [x]) = due l events ++
    (carried? events x).toList.flatMap (List.replicate (registrations events l)) := by
  simp [due, moments_concat, List.flatMap_map]

end

theorem kept_concat :
    kept (events ++ [x]) = if x.clears then [] else kept events ++ (sent? events x).toList := by
  unfold kept
  rw [moments_concat, List.filterMap_append, List.filterMap_map]
  cases hx : x.clears
  · cases h : sent? events x <;> simp [hx, h]
  · have hsent : sent? events x = none := by cases x <;> simp_all [Event.clears, sent?]
    simp [hx, hsent]

/-! ## The state that a history leads to -/

theorem socket_modify {b : Bus ℓ} {f : Socket ℓ → Socket ℓ} {q : SocketId}
    (hp : p < b.sockets.length) :
    (b.modify p f).socket q = if q = p then f (b.socket p) else b.socket q := by
  split
  · next h => simp [h, Bus.socket, Bus.modify, hp]
  · next h => simp [Bus.socket, Bus.modify, Ne.symm h]

/-- A new socket is like one that does not exist, but for its name. -/
theorem socket_attach {b : Bus ℓ} (name : String) {q : SocketId} : (b.attach name).1.socket q =
    if q = b.sockets.length then { b.socket q with name := name } else b.socket q := by
  split
  · next h =>
    simp [h, Bus.socket, Bus.attach]
    exact ⟨rfl, rfl, rfl⟩
  · next h =>
    simp only [Bus.socket, Bus.attach, List.getD_eq_getElem?_getD]
    rcases Nat.lt_or_gt_of_ne h with h | h
    · rw [List.getElem?_append_left h]
    · rw [List.getElem?_eq_none (by simp; omega), List.getElem?_eq_none h.le]

theorem rtake_concat (log : List Message) (m : Message) (n : Nat) :
    (log.rtake n ++ [m]).drop ((log.rtake n).length + 1 - n) = (log ++ [m]).rtake n := by
  simp only [List.rtake, List.length_drop, List.length_append, List.length_singleton]
  rw [← List.drop_append_of_le_length (by omega), List.drop_drop]
  congr 1
  omega

/-! ## What an event does -/

theorem sockets_send (b : Bus ℓ) : (b.send p m).1.sockets = b.sockets := by
  cases h : (b.socket p).refusal? m with
  | some _ => rw [Bus.send_of_refusal h]
  | none => rw [Bus.send_of_open h]; rfl

theorem socket_send (b : Bus ℓ) (q : SocketId) : (b.send p m).1.socket q = b.socket q := by
  simp only [Bus.socket, sockets_send]

theorem closed_after (hx : ∀ p ∈ x.socket?, p < w.bus.sockets.length) (q : SocketId) :
    ((w.after x).bus.socket q).closed = ((w.bus.socket q).closed || x.closes q) := by
  cases x
  case attach => grind [after, socket_attach, Event.closes]
  case send => simp [after, socket_send, Event.closes]
  case inject => simp [after, Event.closes]
  case clearLog => simp [after, Event.closes, Bus.clearLog, Bus.socket]
  all_goals
    have hp := hx _ rfl
    grind [after, Bus.listen, Bus.setFailing, Bus.close, socket_modify, Event.closes]

theorem failing_after (hx : ∀ p ∈ x.socket?, p < w.bus.sockets.length) (q : SocketId) :
    ((w.after x).bus.socket q).failing = (x.sets? q).getD (w.bus.socket q).failing := by
  cases x
  case attach => grind [after, socket_attach, Event.sets?]
  case send => simp [after, socket_send, Event.sets?]
  case inject => simp [after, Event.sets?]
  case clearLog => simp [after, Event.sets?, Bus.clearLog, Bus.socket]
  all_goals
    have hp := hx _ rfl
    grind [after, Bus.listen, Bus.setFailing, Bus.close, socket_modify, Event.sets?]

section

variable [DecidableEq ℓ]

theorem count_listeners_after (hx : ∀ p ∈ x.socket?, p < w.bus.sockets.length) (q : SocketId)
    (l : ℓ) : ((w.after x).bus.socket q).listeners.count l =
      (w.bus.socket q).listeners.count l + if x.registers l (· == q) then 1 else 0 := by
  cases x
  case attach => grind [after, socket_attach, Event.registers]
  case send => simp [after, socket_send, Event.registers]
  case inject => simp [after, Event.registers]
  case clearLog => simp [after, Event.registers, Bus.clearLog, Bus.socket]
  all_goals
    have hp := hx _ rfl
    grind [after, Bus.listen, Bus.setFailing, Bus.close, socket_modify, Event.registers]

/-- Who hears a bus when a socket has changed: those at the other sockets as before. -/
theorem count_audience_modify {b : Bus ℓ} {f : Socket ℓ → Socket ℓ} (hp : p < b.sockets.length)
    (l : ℓ) : (b.modify p f).audience.count l + (b.socket p).audience.count l =
      b.audience.count l + (f (b.socket p)).audience.count l := by
  unfold Bus.audience Bus.modify Bus.socket
  simp only
  generalize b.sockets = sockets at hp
  induction sockets generalizing p with
  | nil => simp at hp
  | cons s rest ih =>
    cases p with
    | zero => simp; omega
    | succ p =>
      have := ih (p := p) (by simpa using hp)
      simp at this ⊢
      omega

theorem count_audience_attach {b : Bus ℓ} (name : String) (l : ℓ) :
    (b.attach name).1.audience.count l = b.audience.count l := by
  simp [Bus.audience, Bus.attach, Socket.audience]

/-- The registrations at a socket and those at the others. -/
theorem countP_registers_ne (at? : SocketId → Bool) (p : SocketId) (events : List (Event ℓ)) :
    events.countP (Event.registers l fun q => at? q && !(p == q)) +
      (if at? p then events.countP (Event.registers l (· == p)) else 0) =
        events.countP (Event.registers l at?) := by
  induction events with
  | nil => simp
  | cons y events ih =>
    simp only [List.countP_cons]
    cases y
    case listen q k =>
      grind [Event.registers]
    all_goals simpa [Event.registers] using ih

theorem registrations_close (events : List (Event ℓ)) (p : SocketId) (l : ℓ) :
    registrations (events ++ [.close p]) l +
      (if !closed events p then events.countP (Event.registers l (· == p)) else 0) =
        registrations events l := by
  have h := countP_registers_ne (l := l) (fun q => !closed events q) p events
  simpa [registrations, List.countP_append, closed_concat, Event.closes, Event.registers] using h

theorem registrations_concat (hx : ∀ p, x.closes p = false) :
    registrations (events ++ [x]) l =
      registrations events l + if x.registers l (fun p => !closed events p) then 1 else 0 := by
  simp [registrations, List.countP_append, closed_concat, hx, List.countP_singleton]

/-- What a history says about the bus that it leads to. -/
structure Follows (n : Nat) (events : List (Event ℓ)) (w : Exchange ℓ) : Prop where
  limit : w.bus.limit = n
  closed : ∀ p, (w.bus.socket p).closed = closed events p
  failing : ∀ p, (w.bus.socket p).failing = failing events p
  listeners : ∀ p l, (w.bus.socket p).listeners.count l =
    events.countP (Event.registers l (· == p))
  audience : ∀ l, w.bus.audience.count l = registrations events l
  log : w.bus.log = (kept events).rtake n

theorem follows_fresh (n : Nat) : Follows n ([] : List (Event ℓ)) (fresh n) where
  limit := rfl
  closed _ := rfl
  failing _ := rfl
  listeners _ _ := rfl
  audience _ := rfl
  log := by simp [fresh, Bus.empty, kept, moments]

theorem Follows.refusal?_eq_none (h : Follows limit events w) :
    (w.bus.socket p).refusal? m = none ↔
      Exchange.closed events p = false ∧ Exchange.failing events p = false := by
  simp only [Socket.refusal?, h.closed, h.failing]
  grind

theorem Follows.sent?_of_open (h : Follows limit events w)
    (hopen : (w.bus.socket p).refusal? m = none) : sent? events (.send p m) = some m := by
  have := h.refusal?_eq_none.1 hopen
  simp [sent?, this]

theorem Follows.sent?_of_refusal (h : Follows limit events w) {failure : GatewayFailure}
    (hrefusal : (w.bus.socket p).refusal? m = some failure) : sent? events (.send p m) = none := by
  have hrefused : ¬(Exchange.closed events p = false ∧ Exchange.failing events p = false) := by
    rw [← h.refusal?_eq_none, hrefusal]
    exact Option.some_ne_none failure
  grind [sent?]

theorem Follows.log_after (h : Follows limit events w) : (w.after x).bus.limit = limit ∧
    (w.after x).bus.log = (kept (events ++ [x])).rtake limit := by
  have hlog := h.log
  have hlimit := h.limit
  rw [kept_concat]
  cases x
  case send p m =>
    cases hrefusal : (w.bus.socket p).refusal? m with
    | none =>
      subst hlimit
      simp only [Exchange.after, Bus.send_of_open hrefusal, Bus.record, hlog,
        h.sent?_of_open hrefusal]
      exact ⟨trivial, rtake_concat _ _ _⟩
    | some _ =>
      simp only [Exchange.after, Bus.send_of_refusal hrefusal, h.sent?_of_refusal hrefusal]
      exact ⟨hlimit, by simpa [Event.clears] using hlog⟩
  case clearLog => exact ⟨hlimit, by simp [Exchange.after, Bus.clearLog, Event.clears]⟩
  all_goals
    refine ⟨hlimit, ?_⟩
    change w.bus.log = _
    simpa [Event.clears, sent?] using hlog

theorem Follows.audience_after (h : Follows limit events w)
    (hx : ∀ p ∈ x.socket?, p < w.bus.sockets.length) (l : ℓ) :
    (w.after x).bus.audience.count l = registrations (events ++ [x]) l := by
  have haudience := h.audience l
  cases x
  case attach name =>
    rw [registrations_concat fun _ => rfl, ← haudience]
    exact count_audience_attach name l
  case listen p k =>
    have hcount := count_audience_modify (hx p rfl) l
      (f := fun q => { q with listeners := q.listeners ++ [k] })
    rw [registrations_concat fun _ => rfl]
    simp only [Exchange.after, Bus.listen]
    have hclosed := h.closed p
    grind [Socket.audience, Event.registers]
  case setFailing p failing =>
    have hcount := count_audience_modify (hx p rfl) l (f := fun q => { q with failing := failing })
    rw [registrations_concat fun _ => rfl]
    simp only [Exchange.after, Bus.setFailing]
    grind [Socket.audience, Event.registers]
  case close p =>
    have hcount := count_audience_modify (hx p rfl) l (f := fun q => { q with closed := true })
    have hclose := registrations_close events p l
    have hclosed := h.closed p
    have hlisteners := h.listeners p l
    simp only [Exchange.after, Bus.close]
    grind [Socket.audience]
  case send p m =>
    rw [registrations_concat fun _ => rfl, ← haudience]
    simp [Exchange.after, Bus.audience, sockets_send, Event.registers]
  all_goals
    rw [registrations_concat fun _ => rfl, ← haudience]
    rfl

theorem Follows.after (h : Follows limit events w)
    (hx : ∀ p ∈ x.socket?, p < w.bus.sockets.length) :
    Follows limit (events ++ [x]) (w.after x) where
  limit := h.log_after.1
  closed q := by rw [closed_after hx, closed_concat, h.closed]
  failing q := by rw [failing_after hx, failing_concat, h.failing]
  listeners q l := by
    rw [count_listeners_after hx, h.listeners, List.countP_append, List.countP_singleton]
  audience := h.audience_after hx
  log := h.log_after.2

theorem follows_run (hrun : (fresh limit).run? events = some w) : Follows limit events w := by
  induction events using List.reverseRecOn generalizing w with
  | nil =>
    obtain rfl : fresh limit = w := by simpa [run?] using hrun
    exact follows_fresh limit
  | append_singleton events x ih =>
    rw [run?_concat, Option.bind_eq_some_iff] at hrun
    obtain ⟨v, hv, hstep⟩ := hrun
    obtain ⟨hx, rfl⟩ := step?_eq_some.1 hstep
    exact (ih hv).after hx

/-! ## What the listeners get -/

/-- A message got, against the one that was to be carried. -/
abbrev Copies : List Message → List Message → Prop :=
  List.Forall₂ fun got issued => got.equal issued

theorem Copies.replicate {n m : Message} (h : n.equal m) (k : Nat) :
    Copies (List.replicate k n) (List.replicate k m) := by
  induction k with
  | zero => exact .nil
  | succ k ih => exact .cons h ih

theorem heardBy_append (w : Exchange ℓ) (b : Bus ℓ) (audience : List ℓ) (m : Message) :
    heardBy ⟨b, w.heard ++ audience.map fun l => (l, m)⟩ l =
      w.heardBy l ++ List.replicate (audience.count l) m := by
  simp only [heardBy, List.filter_append, List.map_append, List.append_cancel_left_eq]
  induction audience with
  | nil => simp
  | cons k audience ih => by_cases hk : k = l <;> simp [hk, ih, List.replicate_succ]

/-- A message that survives is carried to the whole audience. -/
theorem heardBy_carry (h : Follows limit events w) (hm : Survives m) (b : Bus ℓ)
    (status : DeliveryStatus) (l : ℓ) : ∃ copies,
      Copies copies (List.replicate (registrations events l) m) ∧
        heardBy ⟨b, w.heard ++ (w.bus.carry m status).deliveries⟩ l = w.heardBy l ++ copies := by
  obtain ⟨n, hread, hequal⟩ := hm
  refine ⟨List.replicate (registrations events l) n, Copies.replicate hequal _, ?_⟩
  rw [Bus.carry_eq_handOut, Bus.handOut_of_ok hread, heardBy_append, h.audience]

/-- What an event brings to a listener: a copy of what is carried for each registration. -/
theorem heardBy_after (h : Follows limit events w) (hm : ∀ m ∈ x.message?, Survives m) (l : ℓ) :
    ∃ copies, Copies copies
        ((carried? events x).toList.flatMap (List.replicate (registrations events l))) ∧
      (w.after x).heardBy l = w.heardBy l ++ copies := by
  cases x
  case send p m =>
    cases hrefusal : (w.bus.socket p).refusal? m with
    | none =>
      simp only [Exchange.after, Bus.send_of_open hrefusal, carried?, h.sent?_of_open hrefusal]
      simpa using heardBy_carry h (hm m rfl) _ _ l
    | some failure =>
      simp only [Exchange.after, Bus.send_of_refusal hrefusal, carried?,
        h.sent?_of_refusal hrefusal]
      exact ⟨[], by simp, by simp [heardBy]⟩
  case inject m =>
    have hcarry := heardBy_carry h (hm m rfl) w.bus .unknown l
    simpa [carried?, Exchange.after, Bus.inject] using hcarry
  all_goals exact ⟨[], .nil, by simp [heardBy, Exchange.after]⟩

/-- **A bus is a broadcast log.** A sending succeeds unless its socket has been closed or is set to
fail. Each listener has got one copy of each message that was sent or injected for each of its
registrations at sockets that were open at that moment, in the order of the messages, and nothing
else. The log is the end, as long as its limit, of what was sent since it was emptied. -/
theorem follows_broadcasts (hrun : (fresh limit).run? events = some w)
    (hsurvive : ∀ x ∈ events, ∀ m ∈ x.message?, Survives m) :
    (∀ pre p m post, events = pre ++ .send p m :: post → ∃ v, (fresh limit).run? pre = some v ∧
      ((∃ status, (v.bus.send p m).2.outcome = .ok status) ↔
        closed pre p = false ∧ failing pre p = false)) ∧
      (∀ l, Copies (w.heardBy l) (due l events)) ∧ w.bus.log = (kept events).rtake limit := by
  refine ⟨fun pre p m post hevents => ?_, fun l => ?_, (follows_run hrun).log⟩
  · rw [hevents, run?, List.foldlM_append] at hrun
    obtain ⟨v, hv, -⟩ := Option.bind_eq_some_iff.1 hrun
    refine ⟨v, hv, ?_⟩
    rw [← (follows_run hv).refusal?_eq_none (m := m)]
    cases hrefusal : (v.bus.socket p).refusal? m with
    | none =>
      obtain ⟨n, hread, -⟩ := hsurvive (.send p m) (by simp [hevents]) m rfl
      rw [Bus.send_of_open hrefusal, Bus.carry_eq_handOut, Bus.handOut_of_ok hread]
      simp
    | some failure =>
      rw [Bus.send_of_refusal hrefusal]
      simp
  · induction events using List.reverseRecOn generalizing w with
    | nil =>
      obtain rfl : fresh limit = w := by simpa [run?] using hrun
      exact .nil
    | append_singleton events x ih =>
      rw [run?_concat, Option.bind_eq_some_iff] at hrun
      obtain ⟨v, hv, hstep⟩ := hrun
      obtain ⟨-, rfl⟩ := step?_eq_some.1 hstep
      obtain ⟨copies, hcopies, heq⟩ :=
        heardBy_after (follows_run hv) (hsurvive x (by simp)) l
      rw [heq, due_concat]
      exact List.rel_append (ih hv fun y hy => hsurvive y (by simp [hy])) hcopies

/-- Two messages that differ in their numbers. -/
def numbered (n : Nat) : Message :=
  .ping (.ofNat n) default default

/-- Two sockets, the one closed in the end and the other failing for a while, and one listener. -/
def twoSockets : List (Event Nat) :=
  [.attach "a", .attach "b", .listen 0 7, .listen 0 7, .listen 1 7, .setFailing 1 true,
    .send 1 (numbered 0), .send 0 (numbered 1), .inject (numbered 2), .close 0,
    .setFailing 1 false, .clearLog, .send 0 (numbered 3), .send 1 (numbered 4),
    .send 1 (numbered 5)]

theorem follows_broadcasts_two_sockets : ∃ w : Exchange Nat,
    (fresh 1).run? twoSockets = some w ∧
      Copies (w.heardBy 7) [numbered 1, numbered 1, numbered 1, numbered 2, numbered 2, numbered 2,
        numbered 4, numbered 5] ∧
      w.bus.log = [numbered 5] := by
  refine ⟨_, rfl, ?_⟩
  have hsurvive : ∀ n, Survives (numbered n) := fun n =>
    ⟨numbered n,
      Bus.carried_of_not_app (by simp [numbered, Message.ping, Message.plain]),
      by simp [numbered, Message.equal, Message.ping, Message.plain, Payload.equal]⟩
  obtain ⟨-, hheard, hlog⟩ := follows_broadcasts (rfl : (fresh 1).run? twoSockets = _)
    (by simp [twoSockets, Event.message?, hsurvive])
  exact ⟨hheard 7, hlog⟩

end

end Exchange

end Overlay
