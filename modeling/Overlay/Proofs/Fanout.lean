import Mathlib.Data.List.Basic
import Mathlib.Data.List.Induction
import Overlay.Fanout.Roster
import Overlay.Proofs.Traffic

/-!
# The worker of a fanout

Messages are queued when they are dispatched and delivered when the worker gets to them, one
listener after the other, and anything may happen between any two of these steps: a listener that is
called may subscribe, unsubscribe and dispatch itself. A shift is a fanout together with what its
worker has done so far, and its events come in any order.

What the worker does can be told from the events alone: which messages are queued, who is subscribed
after some events, and who it is at each moment at which a message is taken. `worker_loses_nothing`
says that the worker takes just these messages in this order, and calls just these listeners.
-/

namespace Overlay

/-- A fanout, and how far its worker has come. -/
structure Shift (ℓ : Type) where
  fanout : Fanout ℓ
  /-- The messages that the worker has taken, the oldest first. -/
  taken : List Message
  /-- The calls that it has still to make for the message that it took last. -/
  due : List (ℓ × Message)
  /-- The calls that were made, the oldest first. -/
  calls : List (ℓ × Message)

namespace Shift

variable {ℓ : Type}

/-- What may happen to a fanout, and what its worker may do. -/
inductive Event (ℓ : Type) where
  | subscribe (listener : ℓ)
  /-- A subscription is ended or dropped. -/
  | unsubscribe (subscription : SubscriptionId)
  | dispatch (message : Message)
  | stop
  /-- The worker takes the oldest message. -/
  | take
  /-- The worker calls the next listener. -/
  | call

def fresh : Shift ℓ :=
  ⟨.empty .worker, [], [], []⟩

/-- What happens next, if it can. The worker takes a message only when it has made all calls for the
one before. -/
def step? (w : Shift ℓ) : Event ℓ → Option (Shift ℓ)
  | .subscribe l => some { w with fanout := (w.fanout.subscribe l).1 }
  | .unsubscribe s => some { w with fanout := w.fanout.unsubscribe s }
  | .dispatch m =>
    let (fanout, audience) := w.fanout.dispatch m
    some { w with fanout := fanout, calls := w.calls ++ audience.map fun l => (l, m) }
  | .stop => some { w with fanout := w.fanout.stop }
  | .take =>
    match w.due, w.fanout.take? with
    | [], some (m, audience, fanout) =>
      some { w with
        fanout := fanout
        taken := w.taken ++ [m]
        due := audience.map fun l => (l, m) }
    | _, _ => none
  | .call =>
    match w.due with
    | [] => none
    | c :: rest => some { w with due := rest, calls := w.calls ++ [c] }

def run? (w : Shift ℓ) (events : List (Event ℓ)) : Option (Shift ℓ) :=
  events.foldlM step? w

/-! ## What a history tells -/

namespace Event

def ends (s : SubscriptionId) : Event ℓ → Bool
  | unsubscribe t => t == s
  | _ => false

/-- Whether an event is something that the worker does. -/
def isWork : Event ℓ → Bool
  | take | call => true
  | _ => false

def isStop : Event ℓ → Bool
  | stop => true
  | _ => false

def isSubscribe : Event ℓ → Bool
  | subscribe _ => true
  | _ => false

end Event

/-- The messages that are dispatched before the queue is closed. -/
def queued : List (Event ℓ) → List Message
  | [] | .stop :: _ => []
  | .dispatch m :: rest => m :: queued rest
  | _ :: rest => queued rest

/-- The subscriptions that are made, numbered from a number on, and not ended afterwards. -/
def subscribed (next : SubscriptionId) : List (Event ℓ) → List (SubscriptionId × ℓ)
  | [] => []
  | .subscribe l :: rest =>
    if rest.any (Event.ends next) then subscribed (next + 1) rest
    else (next, l) :: subscribed (next + 1) rest
  | _ :: rest => subscribed next rest

/-- Who is subscribed at each moment at which the worker takes a message. -/
def audiences (events : List (Event ℓ)) : List (List (SubscriptionId × ℓ)) :=
  (List.range events.length).filterMap fun k =>
    match events[k]? with
    | some Event.take => some (subscribed 0 (events.take k))
    | _ => none

/-- The calls that messages ask for, each message with those to whom it goes. -/
def callsFor (messages : List Message) (audiences : List (List (SubscriptionId × ℓ))) :
    List (ℓ × Message) :=
  (messages.zip audiences).flatMap fun x => x.2.map fun s => (s.2, x.1)

variable {w w' : Shift ℓ} {events more : List (Event ℓ)} {x : Event ℓ} {l : ℓ} {m : Message}
  {s next : SubscriptionId}

theorem run?_append : w.run? (events ++ more) = (w.run? events).bind fun v => v.run? more := by
  simp [run?, List.foldlM_append]

theorem run?_concat : w.run? (events ++ [x]) = (w.run? events).bind fun v => v.step? x := by
  simp [run?, List.foldlM_append]

theorem step?_take : w.step? .take = some w' ↔ ∃ m rest, w.due = [] ∧ w.fanout.queue = m :: rest ∧
    { w with
      fanout := { w.fanout with queue := rest }
      taken := w.taken ++ [m]
      due := w.fanout.audience.map fun l => (l, m) } = w' := by
  cases hdue : w.due <;> cases hqueue : w.fanout.queue <;> simp [step?, Fanout.take?, hdue, hqueue]

theorem step?_call : w.step? .call = some w' ↔
    ∃ c rest, w.due = c :: rest ∧ { w with due := rest, calls := w.calls ++ [c] } = w' := by
  cases hdue : w.due <;> simp [step?, hdue]

theorem queued_concat : queued (events ++ [x]) =
    queued events ++ match x with
      | .dispatch m => if events.any Event.isStop then [] else [m]
      | _ => [] := by
  induction events with
  | nil => cases x <;> rfl
  | cons y events ih =>
    cases y with
    | stop => cases x <;> simp [queued, Event.isStop]
    | _ => simp [queued, ih, Event.isStop]

theorem subscribed_concat : subscribed next (events ++ [x]) =
    match x with
    | .subscribe l => subscribed next events ++ [(next + events.countP Event.isSubscribe, l)]
    | .unsubscribe s => (subscribed next events).filter (·.1 ≠ s)
    | _ => subscribed next events := by
  induction events generalizing next with
  | nil => cases x <;> rfl
  | cons y events ih =>
    cases y with
    | subscribe k =>
      have hcount : next + 1 + events.countP Event.isSubscribe =
          next + (Event.subscribe k :: events).countP Event.isSubscribe := by
        rw [List.countP_cons_of_pos rfl, Nat.add_assoc, Nat.add_comm 1]
      simp only [List.cons_append, subscribed, List.any_append, List.any_cons, List.any_nil,
        Bool.or_false, ih, ← hcount]
      by_cases hended : events.any (Event.ends next) = true
      · cases x <;> simp [hended]
      · cases x with
        | unsubscribe s =>
          by_cases hs : s = next
          · simp [hended, Event.ends, hs]
          · simp [hended, Event.ends, hs, Ne.symm hs]
        | _ => simp [hended, Event.ends]
    | _ => cases x <;> simp [subscribed, ih, Event.isSubscribe]

theorem audiences_concat : audiences (events ++ [x]) =
    audiences events ++ match x with
      | .take => [subscribed 0 events]
      | _ => [] := by
  have hearlier : ∀ k ∈ List.range events.length,
      (events ++ [x])[k]? = events[k]? ∧ (events ++ [x]).take k = events.take k := by
    intro k hk
    have hlt := List.mem_range.1 hk
    exact ⟨List.getElem?_append_left hlt, List.take_append_of_le_length (Nat.le_of_lt hlt)⟩
  simp only [audiences, List.length_append, List.length_singleton, List.range_succ,
    List.filterMap_append]
  congr 1
  · refine List.filterMap_congr fun k hk => ?_
    rw [(hearlier k hk).1, (hearlier k hk).2]
  · cases x <;> simp

theorem callsFor_concat {ms : List Message} {as : List (List (SubscriptionId × ℓ))}
    {subscribers : List (SubscriptionId × ℓ)} (h : as.length = ms.length) :
    callsFor (ms ++ [m]) (as ++ [subscribers]) =
      callsFor ms as ++ subscribers.map fun s => (s.2, m) := by
  simp [callsFor, List.zip_append h.symm]

/-! ## What every event keeps -/

/-- A shift is as the events tell that have happened. -/
structure Kept (events : List (Event ℓ)) (w : Shift ℓ) : Prop where
  mode : w.fanout.mode = .worker
  accepting : w.fanout.accepting = !events.any Event.isStop
  next : w.fanout.next = events.countP Event.isSubscribe
  listeners : w.fanout.listeners = subscribed 0 events
  queue : w.taken ++ w.fanout.queue = queued events
  taken : (audiences events).length = w.taken.length
  calls : w.calls ++ w.due = callsFor w.taken (audiences events)

namespace Kept

theorem fresh : Kept [] (fresh : Shift ℓ) :=
  ⟨rfl, rfl, rfl, rfl, rfl, rfl, rfl⟩

/-- **One event.** -/
theorem step (h : Kept events w) (hstep : w.step? x = some w') : Kept (events ++ [x]) w' := by
  cases x with
  | subscribe l =>
    obtain rfl := Option.some.inj hstep
    constructor
    case mode => exact h.mode
    case accepting => simpa [Fanout.subscribe, Event.isStop] using h.accepting
    case next => simp [Fanout.subscribe, h.next, Event.isSubscribe]
    case listeners => simp [Fanout.subscribe, subscribed_concat, h.listeners, h.next]
    case queue => simpa [Fanout.subscribe, queued_concat] using h.queue
    case taken => simpa [audiences_concat] using h.taken
    case calls => simpa [audiences_concat] using h.calls
  | unsubscribe s =>
    obtain rfl := Option.some.inj hstep
    constructor
    case mode => exact h.mode
    case accepting => simpa [Fanout.unsubscribe, Event.isStop] using h.accepting
    case next => simpa [Fanout.unsubscribe, Event.isSubscribe] using h.next
    case listeners => simp [Fanout.unsubscribe, subscribed_concat, h.listeners]
    case queue => simpa [Fanout.unsubscribe, queued_concat] using h.queue
    case taken => simpa [audiences_concat] using h.taken
    case calls => simpa [audiences_concat] using h.calls
  | dispatch m =>
    have hdispatch : w.fanout.dispatch m =
        (if w.fanout.accepting then { w.fanout with queue := w.fanout.queue ++ [m] }
          else w.fanout, []) := by
      simp [Fanout.dispatch, h.mode]
    simp only [step?, hdispatch, List.map_nil, List.append_nil, Option.some.injEq] at hstep
    subst hstep
    have haccepting := h.accepting
    constructor
    case mode => split <;> exact h.mode
    case accepting => split <;> simpa [Event.isStop] using haccepting
    case next => split <;> simpa [Event.isSubscribe] using h.next
    case listeners => split <;> simpa [subscribed_concat] using h.listeners
    case queue =>
      -- A message is queued exactly as long as the queue has not been closed.
      rw [queued_concat, ← h.queue]
      cases hstopped : events.any Event.isStop <;> simp [haccepting, hstopped]
    case taken => simpa [audiences_concat] using h.taken
    case calls => simpa [audiences_concat] using h.calls
  | stop =>
    obtain rfl := Option.some.inj hstep
    constructor
    case mode => exact h.mode
    case accepting => simp [Fanout.stop, Event.isStop]
    case next => simpa [Fanout.stop, Event.isSubscribe] using h.next
    case listeners => simpa [Fanout.stop, subscribed_concat] using h.listeners
    case queue => simpa [Fanout.stop, queued_concat] using h.queue
    case taken => simpa [audiences_concat] using h.taken
    case calls => simpa [audiences_concat] using h.calls
  | take =>
    obtain ⟨m, rest, hdue, hqueue, rfl⟩ := step?_take.1 hstep
    constructor
    case mode => exact h.mode
    case accepting => simpa [Event.isStop] using h.accepting
    case next => simpa [Event.isSubscribe] using h.next
    case listeners => simpa [subscribed_concat] using h.listeners
    case queue => simp [queued_concat, ← h.queue, hqueue]
    case taken => simp [audiences_concat, h.taken]
    case calls =>
      have hcalls := h.calls
      rw [hdue, List.append_nil] at hcalls
      simp [audiences_concat, callsFor_concat h.taken, hcalls, Fanout.audience, h.listeners]
  | call =>
    obtain ⟨c, rest, hdue, rfl⟩ := step?_call.1 hstep
    constructor
    case mode => exact h.mode
    case accepting => simpa [Event.isStop] using h.accepting
    case next => simpa [Event.isSubscribe] using h.next
    case listeners => simpa [subscribed_concat] using h.listeners
    case queue => simpa [queued_concat] using h.queue
    case taken => simpa [audiences_concat] using h.taken
    case calls => simpa [audiences_concat, hdue] using h.calls

end Kept

/-- **A run.** -/
theorem kept_of_run (hrun : fresh.run? events = some w) : Kept events w := by
  induction events using List.reverseRecOn generalizing w with
  | nil =>
    obtain rfl := Option.some.inj hrun
    exact .fresh
  | append_singleton events x ih =>
    rw [run?_concat] at hrun
    obtain ⟨v, hv, hstep⟩ := Option.bind_eq_some_iff.1 hrun
    exact (ih hv).step hstep

/-! ## The worker gets everywhere -/

/-- The worker can make the calls that are due. -/
theorem run?_calls (w : Shift ℓ) : w.run? (List.replicate w.due.length .call) =
    some { w with due := [], calls := w.calls ++ w.due } := by
  obtain ⟨fanout, taken, due, calls⟩ := w
  induction due generalizing calls with
  | nil => simp [run?]
  | cons c due ih =>
    have hcall : step? ⟨fanout, taken, c :: due, calls⟩ .call =
        some ⟨fanout, taken, due, calls ++ [c]⟩ := rfl
    simpa [run?, List.replicate_succ, hcall] using ih (calls ++ [c])

theorem isWork_of_mem_replicate {n : Nat} (hx : x ∈ List.replicate n Event.call) :
    x.isWork = true := by
  rw [List.eq_of_mem_replicate hx]
  rfl

/-- Whatever is queued, the worker can go on until there is nothing left to do. -/
theorem exists_work (w : Shift ℓ) : ∃ work w', (∀ x ∈ work, x.isWork = true) ∧
    w.run? work = some w' ∧ w'.fanout.queue = [] ∧ w'.due = [] := by
  induction hqueue : w.fanout.queue generalizing w with
  | nil => exact ⟨_, _, fun x hx => isWork_of_mem_replicate hx, run?_calls w, hqueue, rfl⟩
  | cons m rest ih =>
    let v : Shift ℓ := ⟨{ w.fanout with queue := rest }, w.taken ++ [m],
      w.fanout.audience.map fun l => (l, m), w.calls ++ w.due⟩
    have htake : step? { w with due := [], calls := w.calls ++ w.due } .take = some v :=
      step?_take.2 ⟨m, rest, rfl, hqueue, rfl⟩
    obtain ⟨work, w', hwork, hrun, hdone⟩ := ih v rfl
    refine ⟨List.replicate w.due.length .call ++ .take :: work, w', ?_, ?_, hdone⟩
    · intro x hx
      simp only [List.mem_append, List.mem_cons] at hx
      rcases hx with hx | rfl | hx
      · exact isWork_of_mem_replicate hx
      · rfl
      · exact hwork x hx
    · rw [run?_append, run?_calls, Option.bind_some, run?, List.foldlM_cons, htake]
      exact hrun

/-- The worker queues nothing. -/
theorem queued_append_work {work : List (Event ℓ)} (hwork : ∀ x ∈ work, x.isWork = true) :
    queued (events ++ work) = queued events := by
  induction work using List.reverseRecOn with
  | nil => rw [List.append_nil]
  | append_singleton work x ih =>
    have hx := hwork x (by simp)
    rw [← List.append_assoc, queued_concat, ih fun y hy => hwork y (by simp [hy])]
    cases x <;> simp_all [Event.isWork]

/-- Subscriptions are kept in their order, each once. -/
theorem ordered_subscribed (next : SubscriptionId) (events : List (Event ℓ)) :
    (∀ s ∈ subscribed next events, next ≤ s.1) ∧
      (subscribed next events).Pairwise fun s t => s.1 < t.1 := by
  induction events generalizing next with
  | nil => simp [subscribed]
  | cons x events ih =>
    cases x with
    | subscribe l =>
      obtain ⟨hle, hordered⟩ := ih (next + 1)
      rw [subscribed]
      split
      · exact ⟨fun s hs => Nat.le_of_succ_le (hle s hs), hordered⟩
      · refine ⟨?_, List.pairwise_cons.2 ⟨hle, hordered⟩⟩
        intro s hs
        rcases List.mem_cons.1 hs with rfl | hs
        · exact Nat.le_refl next
        · exact Nat.le_of_succ_le (hle s hs)
    | _ => exact ih next

/-- **The worker of a fanout loses nothing, repeats nothing and changes no order.** It takes the
messages that are dispatched before the queue is closed, in the order in which they are dispatched,
and none that comes later; what it has not taken is still queued. For every message that it takes it
calls those who are subscribed at that moment, each of them once and in the order of their
subscriptions, and nobody else; what it has not called is still due. It rests only when nothing is
left to do, and wherever it is interrupted, it gets there if it goes on. -/
theorem worker_loses_nothing (hrun : fresh.run? events = some w) :
    w.taken ++ w.fanout.queue = queued events ∧
    (audiences events).length = w.taken.length ∧
    w.calls ++ w.due = callsFor w.taken (audiences events) ∧
    (∀ subscribers ∈ audiences events, subscribers.Pairwise fun s t => s.1 < t.1) ∧
    (w.step? .take = none → w.step? .call = none → w.fanout.queue = [] ∧ w.due = []) ∧
    ∃ work w', (∀ x ∈ work, x.isWork = true) ∧ fresh.run? (events ++ work) = some w' ∧
      w'.taken = queued events ∧ w'.calls = callsFor (queued events) (audiences (events ++ work)) := by
  have h := kept_of_run hrun
  refine ⟨h.queue, h.taken, h.calls, ?_, ?_, ?_⟩
  · intro subscribers hs
    obtain ⟨k, -, hk⟩ := List.mem_filterMap.1 hs
    split at hk
    · exact Option.some.inj hk ▸ (ordered_subscribed 0 _).2
    · contradiction
  · intro htake hcall
    cases hdue : w.due with
    | cons c rest => simp [step?, hdue] at hcall
    | nil =>
      cases hqueue : w.fanout.queue with
      | nil => exact ⟨rfl, rfl⟩
      | cons m rest => simp [step?, Fanout.take?, hdue, hqueue] at htake
  · obtain ⟨work, w', hwork, hmore, hqueue, hdue⟩ := exists_work w
    have hall : fresh.run? (events ++ work) = some w' := by rw [run?_append, hrun]; exact hmore
    have h' := kept_of_run hall
    have htaken : w'.taken = queued events := by
      simpa [hqueue, queued_append_work hwork] using h'.queue
    exact ⟨work, w', hwork, hall, htaken, by simpa [hdue, htaken] using h'.calls⟩

/-- A listener leaves while a message is delivered to it, another one comes before the next message
is taken, and the queue is closed before the last one is dispatched. -/
def handover (m : Message) : List (Event Nat) :=
  [.subscribe 7, .dispatch m, .subscribe 8, .dispatch m, .take, .unsubscribe 0, .call, .stop,
    .dispatch m, .subscribe 9, .call, .take, .call]

theorem worker_loses_nothing_handover : ∃ w, fresh.run? (handover default) = some w ∧
    w.calls.map Prod.fst = [7, 8, 8] ∧ w.due.map Prod.fst = [9] ∧
    w.taken ++ w.fanout.queue = queued (handover default) ∧
    (queued (handover default)).length = 2 :=
  ⟨_, rfl, rfl, rfl, (worker_loses_nothing rfl).1, rfl⟩

end Shift

/-! ## Rosters -/

namespace Roster

open Shift (Event)

variable {r r' r'' : Roster} {w : Shift (String × Habit)} {m : Message}

/-- A roster and a shift have come equally far. -/
structure Tracks (w : Shift (String × Habit)) (r : Roster) : Prop where
  fanout : w.fanout = r.fanout
  heard : (w.calls.map fun c => (c.1.1, c.2)) = r.heard.reverse

/-- What happens to a roster is a run of its shift, in which the worker takes nothing and which leaves
the same calls due. -/
def Leads (r r' : Roster) : Prop :=
  ∀ w, Tracks w r → ∃ events w', w.run? events = some w' ∧ Tracks w' r' ∧ w'.due = w.due ∧
    w'.taken = w.taken

theorem Leads.refl (r : Roster) : Leads r r := fun _ h => ⟨[], _, rfl, h, rfl, rfl⟩

theorem Leads.trans (h : Leads r r') (h' : Leads r' r'') : Leads r r'' := by
  intro w hw
  obtain ⟨events, v, hrun, hv, hdue, htaken⟩ := h w hw
  obtain ⟨more, w', hmore, hw', hdue', htaken'⟩ := h' v hv
  exact ⟨events ++ more, w', by rw [Shift.run?_append, hrun]; exact hmore, hw', hdue'.trans hdue,
    htaken'.trans htaken⟩

theorem Leads.foldl {α : Type} {act : Roster → α → Roster} (hact : ∀ r a, Leads r (act r a))
    (as : List α) (r : Roster) : Leads r (as.foldl act r) := by
  induction as generalizing r with
  | nil => exact .refl r
  | cons a as ih => exact (hact r a).trans (ih _)

theorem leads_unsubscribe (r : Roster) (name : String) : Leads r (r.unsubscribe name) := by
  unfold unsubscribe
  split
  · next s _ =>
    intro w h
    exact ⟨[.unsubscribe s], _, rfl, ⟨congrArg (Fanout.unsubscribe · s) h.fanout, h.heard⟩, rfl, rfl⟩
  · exact .refl r

theorem leads_subscribe (r : Roster) (name : String) (habit : Habit) :
    Leads r (r.subscribe name habit).1 := by
  have hbegin : Leads r { r with fanout := (r.fanout.subscribe (name, habit)).1 } := fun _ h =>
    ⟨[.subscribe (name, habit)], _, rfl,
      ⟨congrArg (fun f => (Fanout.subscribe f (name, habit)).1) h.fanout, h.heard⟩, rfl, rfl⟩
  have hheld : ∀ (r : Roster) held, Leads r { r with held := held } := fun r held w h =>
    ⟨[], w, rfl, ⟨h.fanout, h.heard⟩, rfl, rfl⟩
  exact hbegin.trans ((leads_unsubscribe _ name).trans (hheld _ _))

theorem leads_admitPlain (r : Roster) (name : String) : Leads r (r.admitPlain name) := by
  unfold admitPlain
  split
  · exact .refl r
  · exact leads_subscribe r name .plain

theorem leads_dispatch (hmode : r.fanout.mode = .worker) (m : Message) : Leads r (r.dispatch m) := by
  intro w h
  refine ⟨[.dispatch m], _, rfl, ⟨?_, ?_⟩, rfl, rfl⟩
  · simp [h.fanout, dispatch, deliver, Fanout.dispatch, hmode]
  · simp [h.fanout, h.heard, dispatch, deliver, Fanout.dispatch, hmode]

theorem leads_stop (r : Roster) : Leads r r.stop :=
  fun _ h => ⟨[.stop], _, rfl, ⟨congrArg Fanout.stop h.fanout, h.heard⟩, rfl, rfl⟩

/-! ### What the worker of a roster does -/

/-- To change the subscriptions leaves the queue and what has been heard as they are. -/
theorem unsubscribe_keeps (r : Roster) (name : String) :
    (r.unsubscribe name).fanout.queue = r.fanout.queue ∧ (r.unsubscribe name).heard = r.heard := by
  unfold unsubscribe
  split <;> exact ⟨rfl, rfl⟩

theorem admitPlain_keeps (r : Roster) (name : String) :
    (r.admitPlain name).fanout.queue = r.fanout.queue ∧ (r.admitPlain name).heard = r.heard := by
  unfold admitPlain
  split
  · exact ⟨rfl, rfl⟩
  · exact unsubscribe_keeps { r with fanout := (r.fanout.subscribe (name, .plain)).1 } name

theorem foldl_keeps {α : Type} {act : Roster → α → Roster}
    (hact : ∀ r a, (act r a).fanout.queue = r.fanout.queue ∧ (act r a).heard = r.heard)
    (as : List α) (r : Roster) : (as.foldl act r).fanout.queue = r.fanout.queue ∧
      (as.foldl act r).heard = r.heard := by
  induction as generalizing r with
  | nil => exact ⟨rfl, rfl⟩
  | cons a as ih => exact ⟨(ih _).1.trans (hact r a).1, (ih _).2.trans (hact r a).2⟩

theorem call_keeps (r : Roster) (m : Message) (c : String × Habit) :
    (r.call m c).fanout.queue = r.fanout.queue ∧ (r.call m c).heard = (c.1, m) :: r.heard := by
  have hdrops := foldl_keeps unsubscribe_keeps c.2.drops { r with heard := (c.1, m) :: r.heard }
  have hadds := foldl_keeps admitPlain_keeps c.2.adds
    (c.2.drops.foldl unsubscribe { r with heard := (c.1, m) :: r.heard })
  exact ⟨hadds.1.trans hdrops.1, hadds.2.trans hdrops.2⟩

theorem deliver_keeps (r : Roster) (m : Message) (audience : List (String × Habit)) :
    (r.deliver m audience).fanout.queue = r.fanout.queue ∧
      (r.deliver m audience).heard = (audience.map fun c => (c.1, m)).reverse ++ r.heard := by
  unfold deliver
  induction audience generalizing r with
  | nil => exact ⟨rfl, rfl⟩
  | cons c audience ih =>
    obtain ⟨hqueue, hheard⟩ := ih (r.call m c)
    rw [(call_keeps r m c).1] at hqueue
    rw [(call_keeps r m c).2] at hheard
    exact ⟨hqueue, by simp [hheard]⟩

/-- **The worker takes the oldest message**, and it is heard by those who are subscribed by then, each
of them once and in the order of their subscriptions. -/
theorem work_delivers_oldest {rest : List Message} (hqueue : r.fanout.queue = m :: rest) :
    r.work.fanout.queue = rest ∧
      r.work.heard = (r.fanout.audience.map fun c => (c.1, m)).reverse ++ r.heard := by
  simp only [work, Fanout.take?, hqueue]
  exact deliver_keeps { r with fanout := { r.fanout with queue := rest } } m r.fanout.audience

/-- The worker has nothing left to do once it has worked for every message. -/
theorem settle_empties (r : Roster) : r.settle.fanout.queue = [] := by
  unfold settle
  generalize hqueue : r.fanout.queue = queue
  induction queue generalizing r with
  | nil => exact hqueue
  | cons m queue ih => exact ih r.work (work_delivers_oldest hqueue).1

/-- A listener is called when that is due, and changes the subscriptions as it is used to. -/
theorem exists_run_call {c : String × Habit} {rest : List ((String × Habit) × Message)}
    (h : Tracks w r) (hdue : w.due = (c, m) :: rest) : ∃ events w', w.run? events = some w' ∧
      Tracks w' (r.call m c) ∧ w'.due = rest ∧ w'.taken = w.taken := by
  have hcalled : Tracks { w with due := rest, calls := w.calls ++ [(c, m)] }
      { r with heard := (c.1, m) :: r.heard } :=
    ⟨h.fanout, by simp [h.heard]⟩
  have hhabit : Leads { r with heard := (c.1, m) :: r.heard } (r.call m c) :=
    (Leads.foldl leads_unsubscribe c.2.drops _).trans (Leads.foldl leads_admitPlain c.2.adds _)
  obtain ⟨events, w', hrun, hw', hrest, htaken⟩ := hhabit _ hcalled
  refine ⟨.call :: events, w', ?_, hw', hrest, htaken⟩
  rw [Shift.run?, List.foldlM_cons, Shift.step?_call.2 ⟨_, _, hdue, rfl⟩]
  exact hrun

theorem exists_run_deliver (audience : List (String × Habit)) (h : Tracks w r)
    (hdue : w.due = audience.map fun c => (c, m)) : ∃ events w', w.run? events = some w' ∧
      Tracks w' (r.deliver m audience) ∧ w'.due = [] ∧ w'.taken = w.taken := by
  induction audience generalizing w r with
  | nil => exact ⟨[], w, rfl, h, hdue, rfl⟩
  | cons c audience ih =>
    obtain ⟨events, v, hrun, hv, hrest, htaken⟩ := exists_run_call h hdue
    obtain ⟨more, w', hmore, hw', hdone, htaken'⟩ := ih hv hrest
    exact ⟨events ++ more, w', by rw [Shift.run?_append, hrun]; exact hmore, hw', hdone,
      htaken'.trans htaken⟩

/-- **A roster whose worker works is a run of a shift** that takes the oldest message, and begins and
ends with nothing due. -/
theorem exists_run_work {rest : List Message} (h : Tracks w r) (hdue : w.due = [])
    (hqueue : r.fanout.queue = m :: rest) : ∃ events w', w.run? (.take :: events) = some w' ∧
      Tracks w' r.work ∧ w'.due = [] ∧ w'.taken = w.taken ++ [m] := by
  let v : Shift (String × Habit) := ⟨{ w.fanout with queue := rest }, w.taken ++ [m],
    w.fanout.audience.map fun l => (l, m), w.calls⟩
  have htake : w.step? .take = some v :=
    Shift.step?_take.2 ⟨m, rest, hdue, h.fanout ▸ hqueue, rfl⟩
  have hbegun : Tracks v { r with fanout := { r.fanout with queue := rest } } :=
    ⟨congrArg (fun f => { f with queue := rest }) h.fanout, h.heard⟩
  have hcalls : v.due = r.fanout.audience.map fun l => (l, m) := by rw [← h.fanout]
  obtain ⟨events, w', hrun, hw', hdone, htaken⟩ := exists_run_deliver r.fanout.audience hbegun hcalls
  refine ⟨events, w', ?_, ?_, hdone, htaken⟩
  · rw [Shift.run?, List.foldlM_cons, htake]
    exact hrun
  · simpa only [work, Fanout.take?, hqueue] using hw'

/-- A roster that is settled is one whose worker has taken all that was queued, in its order. -/
theorem exists_run_settle (h : Tracks w r) (hdue : w.due = []) : ∃ events w',
    w.run? events = some w' ∧ Tracks w' r.settle ∧ w'.due = [] ∧
      w'.taken = w.taken ++ r.fanout.queue := by
  unfold settle
  generalize hqueue : r.fanout.queue = queue
  induction queue generalizing w r with
  | nil => exact ⟨[], w, rfl, h, hdue, (List.append_nil _).symm⟩
  | cons m queue ih =>
    obtain ⟨events, v, hrun, hv, hnone, htaken⟩ := exists_run_work h hdue hqueue
    obtain ⟨more, w', hmore, hw', hdone, htaken'⟩ := ih hv hnone (work_delivers_oldest hqueue).1
    refine ⟨.take :: events ++ more, w', by rw [Shift.run?_append, hrun]; exact hmore, hw', hdone, ?_⟩
    rw [htaken', htaken, List.append_assoc, List.singleton_append]

end Roster

/-! ## Engines -/

namespace Fanout

def dispatchAll {ℓ : Type} (f : Fanout ℓ) (ms : List Message) : Fanout ℓ :=
  ms.foldl (fun f m => (f.dispatch m).1) f

theorem mode_dispatch {ℓ : Type} (f : Fanout ℓ) (m : Message) : (f.dispatch m).1.mode = f.mode := by
  unfold dispatch
  split
  · rfl
  · split <;> rfl

theorem mode_dispatchAll {ℓ : Type} (f : Fanout ℓ) (ms : List Message) :
    (f.dispatchAll ms).mode = f.mode := by
  unfold dispatchAll
  induction ms generalizing f with
  | nil => rfl
  | cons m ms ih => exact (ih (f.dispatch m).1).trans (f.mode_dispatch m)

end Fanout

/-- Messages that are handed in and queued are no calls. -/
theorem Shift.run?_dispatch {ℓ : Type} {w : Shift ℓ} (hmode : w.fanout.mode = .worker)
    (ms : List Message) : w.run? (ms.map .dispatch) =
      some { w with fanout := w.fanout.dispatchAll ms } := by
  unfold Shift.run? Fanout.dispatchAll
  induction ms generalizing w with
  | nil => rfl
  | cons m ms ih =>
    have hstep : w.step? (.dispatch m) = some { w with fanout := (w.fanout.dispatch m).1 } := by
      simp [step?, Fanout.dispatch, hmode]
    rw [List.map_cons, List.foldlM_cons, hstep]
    exact ih (w := { w with fanout := (w.fanout.dispatch m).1 })
      ((w.fanout.mode_dispatch m).trans hmode)

namespace Fabric

variable {f g : Fabric} {e : EngineId} {m : Message} {w : Shift Hearer} {audience : List Hearer}

/-- All that has happened to the listeners of an engine is that messages were handed in. -/
def Feeds (e : EngineId) (f g : Fabric) : Prop :=
  ∃ ms, (g.engine e).fanout = (f.engine e).fanout.dispatchAll ms

theorem feeds_setEngine {d : EngineId} {x : Engine} (hx : x.fanout = (f.engine d).fanout) :
    Feeds e f (f.setEngine d x) := by
  refine ⟨[], ?_⟩
  by_cases hed : e = d
  · subst hed
    by_cases he : e < f.engines.length
    · rw [engine_setEngine_self _ he, hx]
      rfl
    · simp [setEngine, List.set_eq_of_length_le (Nat.le_of_not_lt he), Fanout.dispatchAll, engine]
  · rw [engine_setEngine_ne _ hed]
    rfl

theorem closed_feeds : Closed (Feeds e) fun _ _ => True where
  aside := fun h => ⟨[], by rw [engine, h.engines]; rfl⟩
  trans := by
    rintro f g h ⟨first, hg⟩ ⟨second, hh⟩
    exact ⟨first ++ second, by rw [hh, hg, Fanout.dispatchAll, Fanout.dispatchAll,
      Fanout.dispatchAll, List.foldl_append]⟩
  stable := fun _ _ => trivial
  carried := fun _ _ => trivial
  answer := fun _ _ _ => trivial
  note := fun _ _ => ⟨[], rfl⟩
  queue := by
    intro f m d _
    by_cases hed : e = d
    · subst hed
      by_cases he : e < f.engines.length
      · exact ⟨[m], by rw [setFanout, engine_setEngine_self _ he]; rfl⟩
      · refine ⟨[], ?_⟩
        simp [setFanout, setEngine, List.set_eq_of_length_le (Nat.le_of_not_lt he),
          Fanout.dispatchAll, engine]
    · exact ⟨[], by rw [setFanout, engine_setEngine_ne _ hed]; rfl⟩

theorem processing_feeds : Processing (Feeds e) fun _ _ => True where
  change := by
    intro f d m change now _ _ _
    cases change <;> exact feeds_setEngine rfl
  enquiry := fun _ _ => trivial
  touch := fun _ => feeds_setEngine rfl

/-- A delivery is a run of a shift that makes the calls that are due. What the answers bring about
may be queued meanwhile. -/
theorem exists_run_delivery (h : w.fanout = (f.engine e).fanout) (hmode : w.fanout.mode = .worker)
    (hdue : w.due = audience.map fun l => (l, m)) : ∃ events w', w.run? events = some w' ∧
      w'.fanout = ((f.deliver receive m audience).engine e).fanout ∧ w'.due = [] ∧
      w'.taken = w.taken ∧ w'.calls = w.calls ++ audience.map fun l => (l, m) := by
  unfold deliver
  induction audience generalizing f w with
  | nil => exact ⟨[], w, rfl, h, hdue, rfl, (List.append_nil _).symm⟩
  | cons l audience ih =>
    obtain ⟨ms, hms⟩ := closed_feeds.callHearer (closed_feeds.reception processing_feeds levels)
      (f := f) (m := m) trivial l
    let v : Shift Hearer := ⟨w.fanout, w.taken, audience.map fun l => (l, m), w.calls ++ [(l, m)]⟩
    have hcall : w.step? .call = some v := Shift.step?_call.2 ⟨_, _, hdue, rfl⟩
    have hqueued : v.run? (ms.map .dispatch) = some { v with fanout := v.fanout.dispatchAll ms } :=
      Shift.run?_dispatch (w := v) hmode ms
    rw [← h] at hms
    obtain ⟨events, w', hrun, hfanout, hdone, htaken, hcalls⟩ := ih
      (w := { v with fanout := v.fanout.dispatchAll ms }) hms.symm
      ((w.fanout.mode_dispatchAll ms).trans hmode) rfl
    refine ⟨.call :: (ms.map .dispatch ++ events), w', ?_, hfanout, hdone, htaken, ?_⟩
    · rw [Shift.run?, List.foldlM_cons, hcall]
      change v.run? (ms.map .dispatch ++ events) = some w'
      rw [Shift.run?_append, hqueued]
      exact hrun
    · rw [hcalls]
      simp [v]

/-- **An engine whose worker works is a run of a shift**, too: the oldest message is taken, and all
calls for it are made. -/
theorem exists_run_work {rest : List Message} (h : w.fanout = (f.engine e).fanout)
    (hmode : (f.engine e).fanout.mode = .worker) (hdue : w.due = [])
    (hqueue : (f.engine e).fanout.queue = m :: rest) : ∃ events w',
      w.run? (.take :: events) = some w' ∧ w'.fanout = ((f.work e).engine e).fanout ∧
      w'.due = [] ∧ w'.taken = w.taken ++ [m] ∧
      w'.calls = w.calls ++ (f.engine e).fanout.audience.map fun l => (l, m) := by
  have he : e < f.engines.length := by
    by_contra hlt
    rw [engine, List.getD, List.getElem?_eq_none (Nat.le_of_not_lt hlt)] at hqueue
    exact absurd hqueue (List.cons_ne_nil m rest).symm
  let v : Shift Hearer := ⟨{ w.fanout with queue := rest }, w.taken ++ [m],
    w.fanout.audience.map fun l => (l, m), w.calls⟩
  have htake : w.step? .take = some v :=
    Shift.step?_take.2 ⟨m, rest, hdue, h ▸ hqueue, rfl⟩
  have hset : ((f.setFanout e { (f.engine e).fanout with queue := rest }).engine e).fanout =
      { (f.engine e).fanout with queue := rest } :=
    congrArg Engine.fanout (engine_setEngine_self _ he)
  obtain ⟨events, w', hrun, hfanout, hdone, htaken, hcalls⟩ := exists_run_delivery (w := v) (e := e)
    (f := f.setFanout e { (f.engine e).fanout with queue := rest }) (by rw [hset, ← h])
    ((congrArg Fanout.mode h).trans hmode) rfl
  refine ⟨events, w', ?_, ?_, hdone, htaken, by rw [hcalls, ← h]⟩
  · rw [Shift.run?, List.foldlM_cons, htake]
    exact hrun
  · rw [hfanout, h]
    simp only [work, Fanout.take?, hqueue]
    split <;> rfl

end Fabric

end Overlay
