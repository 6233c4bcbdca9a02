import Overlay.Fabric.Command
import Overlay.Proofs.Mesh.Joining

/-!
# Joins and leaves between one another

A join and a leave each change three things: how the agent stands, who is registered with the
engine, and the responders among its listeners. They do so one thing after the other, and whatever
else goes on may come in between: other calls, also of the same agent, and all sorts of traffic. A
scene is a fabric together with the calls that were ever made and where each of them has got to
(`Stage`). A turn is one change of one of the three things by one call, so a run of turns is any
interleaving of any number of calls.

A join that is refused, because the identity is taken, resets its agent. One that waits can be
dropped at any time until it subscribes its responder. A leave goes on to its end.

What is neither a call nor a shutdown leaves the three things alone (`Fabric.Aloof`); that holds of
everything that is sent, received, dispatched or probed.
-/

namespace Overlay

/-! ## Responders -/

/-- The agent for which a listener answers. -/
def Hearer.agent? : Hearer → Option AgentId
  | .recorder _ => none
  | .responder a _ => some a

namespace Fanout

variable {F : Fanout Hearer} {r : SubscriptionId} {a : AgentId} {l : Hearer}

def responders (F : Fanout Hearer) : List (SubscriptionId × AgentId) :=
  F.listeners.filterMap fun l => l.2.agent?.map fun a => (l.1, a)

theorem responders_subscribe (a : AgentId) (cloud : Identity) :
    (F.subscribe (.responder a cloud)).1.responders = F.responders ++ [(F.next, a)] := by
  simp [responders, subscribe, Hearer.agent?]

theorem responders_unsubscribe :
    (F.unsubscribe r).responders = F.responders.filter (·.1 ≠ r) := by
  simp only [responders, unsubscribe]
  induction F.listeners with
  | nil => rfl
  | cons l ls ih =>
    obtain ⟨s, l⟩ := l
    by_cases hs : s = r <;> cases l <;> simp_all [Hearer.agent?]

end Fanout

/-! ## Standing aloof -/

namespace Fabric

variable {f g h : Fabric} {d e : EngineId} {a : AgentId} {m : Message}

/-- Nobody has come or gone: agents stand as before, the same ones are registered, and the same
responders are subscribed. No subscription gets a number that was given before. -/
structure Aloof (f g : Fabric) : Prop where
  engines : g.engines.length = f.engines.length
  standing : ∀ a, (g.member a).standing = (f.member a).standing
  identity : ∀ a, (g.member a).agent.identity = (f.member a).agent.identity
  members : g.members.length = f.members.length
  locals : ∀ e, (g.engine e).directory.locals = (f.engine e).directory.locals
  responders : ∀ e, (g.engine e).fanout.responders = (f.engine e).fanout.responders
  next : ∀ e, (f.engine e).fanout.next ≤ (g.engine e).fanout.next

namespace Aloof

theorem refl (f : Fabric) : f.Aloof f :=
  ⟨rfl, fun _ => rfl, fun _ => rfl, rfl, fun _ => rfl, fun _ => rfl, fun _ => Nat.le_refl _⟩

theorem trans (hfg : f.Aloof g) (hgh : g.Aloof h) : f.Aloof h where
  engines := hgh.engines.trans hfg.engines
  standing := fun a => (hgh.standing a).trans (hfg.standing a)
  identity := fun a => (hgh.identity a).trans (hfg.identity a)
  members := hgh.members.trans hfg.members
  locals := fun e => (hgh.locals e).trans (hfg.locals e)
  responders := fun e => (hgh.responders e).trans (hfg.responders e)
  next := fun e => Nat.le_trans (hfg.next e) (hgh.next e)

/-- Engines and agents are the same. -/
theorem of_eq (he : g.engines = f.engines) (hm : g.members = f.members) : f.Aloof g := by
  have hengine : ∀ e, g.engine e = f.engine e := fun e => by rw [engine, he, engine]
  have hmember : ∀ a, g.member a = f.member a := fun a => by rw [member, hm, member]
  constructor
  case engines => rw [he]
  case standing => exact fun a => by rw [hmember]
  case identity => exact fun a => by rw [hmember]
  case members => rw [hm]
  case locals => exact fun e => by rw [hengine]
  case responders => exact fun e => by rw [hengine]
  case next => exact fun e => Nat.le_of_eq (by rw [hengine])

/-- An engine with the same registrations and responders. -/
theorem setEngine {x : Engine} (hlocals : x.directory.locals = (f.engine e).directory.locals)
    (hresponders : x.fanout.responders = (f.engine e).fanout.responders)
    (hnext : (f.engine e).fanout.next ≤ x.fanout.next) : f.Aloof (f.setEngine e x) := by
  constructor
  case engines => exact length_setEngine x
  case standing => exact fun _ => rfl
  case identity => exact fun _ => rfl
  case members => rfl
  case locals => exact part_setEngine (·.directory.locals) hlocals
  case responders => exact part_setEngine (·.fanout.responders) hresponders
  case next =>
    intro d
    rcases @engine_setEngine_cases f d e x with hd | ⟨rfl, hd⟩
    · exact Nat.le_of_eq (by rw [hd])
    · rw [hd]
      exact hnext

theorem aside (hfg : f.Aside g) : f.Aloof g := .of_eq hfg.engines hfg.members

/-- Traffic stands aloof, whatever the message. -/
theorem closed : Closed Aloof fun _ _ => True where
  aside := aside
  trans := trans
  stable := fun _ _ => trivial
  carried := fun _ _ => trivial
  answer := fun _ _ _ => trivial
  note := fun _ _ => .of_eq rfl rfl
  queue := by
    intro f m e _
    have hdispatch : ((f.engine e).fanout.dispatch m).1.listeners = (f.engine e).fanout.listeners ∧
        ((f.engine e).fanout.dispatch m).1.next = (f.engine e).fanout.next := by
      unfold Fanout.dispatch
      split
      · exact ⟨rfl, rfl⟩
      · split <;> exact ⟨rfl, rfl⟩
    refine .setEngine rfl ?_ (Nat.le_of_eq hdispatch.2.symm)
    simp only [Fanout.responders, hdispatch.1]

theorem processing : Processing Aloof fun _ _ => True where
  change := by
    intro f e m change now _ _ _
    refine .setEngine ?_ ?_ ?_ <;> cases change <;>
      simp [Engine.changed, Directory.removeRemote]
  enquiry := fun _ _ => trivial
  touch := by
    intro f e m now _
    refine .setEngine ?_ rfl (Nat.le_refl _)
    simp only [Engine.touched, Directory.touch]
    split <;> rfl

theorem receive : Keeps Aloof (fun _ _ => True) Fabric.receive := closed.reception processing _

theorem send (e : EngineId) (m : Message) : f.Aloof (f.send e m).1 :=
  closed.sendBy receive trivial e

theorem process (e : EngineId) (m : Message) : f.Aloof (f.process e m) :=
  closed.processBy processing receive f e m trivial

theorem inject (b : BusId) (m : Message) : f.Aloof (f.inject b m).1 :=
  closed.receiveAll receive fun _ _ => trivial

theorem schedulePass (due : Nat) : f.Aloof (f.schedulePass e due) := by
  have hengine : f.Aloof (f.setEngine e { f.engine e with nextPass := some due }) :=
    setEngine rfl rfl (Nat.le_refl _)
  exact hengine.trans (.of_eq rfl rfl)

theorem setFanout {F : Fanout Hearer} (hresponders : F.responders = (f.engine e).fanout.responders)
    (hnext : (f.engine e).fanout.next ≤ F.next) : f.Aloof (f.setFanout e F) :=
  .setEngine rfl hresponders hnext

end Aloof

end Fabric

/-! ## Scenes -/

/-- Where a call has got to that an agent has made to join or to leave an engine. -/
inductive Stage where
  /-- The agent is joining, and not registered yet. -/
  | entering (agent : AgentId) (engine : EngineId)
  /-- The identity was taken. -/
  | refused (agent : AgentId) (engine : EngineId)
  /-- The agent is registered; the join announces it and waits. -/
  | waiting (agent : AgentId) (engine : EngineId)
  /-- The responder is subscribed, and the agent is about to be attached. -/
  | subscribed (agent : AgentId) (engine : EngineId) (responder : SubscriptionId)
  /-- The join was dropped; the agent is detached, and still registered. -/
  | dropped (agent : AgentId) (engine : EngineId)
  /-- The agent is detached, and its responder is still subscribed. -/
  | leaving (agent : AgentId) (engine : EngineId) (responder : SubscriptionId)
  /-- The responder is subscribed no longer; the leave announces it, and the agent is still
  registered. -/
  | departing (agent : AgentId) (engine : EngineId)
  /-- The call has come to its end. -/
  | over
deriving DecidableEq

/-- What a call does in one turn. -/
inductive Act where
  | begin
  | register
  | refuse
  | reset
  | subscribe
  | settle
  | drop
  | abandon
  | leave
  | unsubscribe
  | unregister
deriving DecidableEq

/-- What happens in one turn. -/
inductive Turn where
  /-- A call of an agent to join or to leave an engine gets on. -/
  | act (act : Act) (agent : AgentId) (engine : EngineId)
  /-- An engine is shut down. -/
  | shutdown (engine : EngineId)
  /-- Nobody comes or goes. -/
  | other
deriving DecidableEq

/-- A fabric, and where all calls have got to that were made so far, in their order. -/
structure Scene where
  fabric : Fabric
  calls : List Stage

namespace Scene

def call (s : Scene) (k : Nat) : Stage :=
  s.calls.getD k .over

def standing (s : Scene) (a : AgentId) : Standing :=
  (s.fabric.member a).standing

def identity (s : Scene) (a : AgentId) : Identity :=
  (s.fabric.member a).agent.identity

def local? (s : Scene) (e : EngineId) (i : Identity) : Option AgentId :=
  (s.fabric.engine e).directory.local? i

def responders (s : Scene) (e : EngineId) : List (SubscriptionId × AgentId) :=
  (s.fabric.engine e).fanout.responders

/-- A call gets on to a stage, with what it does to the fabric. -/
def move (s : Scene) (k : Nat) (stage : Stage) (f : Fabric) : Scene :=
  ⟨f, s.calls.set k stage⟩

/-- A new call is made, with what it does to the fabric. -/
def enter (s : Scene) (stage : Stage) (f : Fabric) : Scene :=
  ⟨f, s.calls ++ [stage]⟩

inductive Step : Scene → Turn → Scene → Prop
  /-- A join begins if its agent is detached. Otherwise it fails, and nothing happens. -/
  | begin {s : Scene} {a : AgentId} {e : EngineId} (ha : a < s.fabric.members.length)
      (he : e < s.fabric.engines.length) (hstanding : s.standing a = .detached) :
      Step s (.act .begin a e) (s.enter (.entering a e) (s.fabric.setStanding a (.joining e)))
  | register {s : Scene} {k : Nat} {a : AgentId} {e : EngineId} {D : Directory}
      (hcall : s.call k = .entering a e)
      (hinsert : (s.fabric.engine e).directory.insertLocal? (s.identity a) a = some D) :
      Step s (.act .register a e) (s.move k (.waiting a e) (s.fabric.setDirectory e D))
  | refuse {s : Scene} {k : Nat} {a : AgentId} {e : EngineId} (hcall : s.call k = .entering a e)
      (hinsert : (s.fabric.engine e).directory.insertLocal? (s.identity a) a = none) :
      Step s (.act .refuse a e) (s.move k (.refused a e) s.fabric)
  | reset {s : Scene} {k : Nat} {a : AgentId} {e : EngineId} (hcall : s.call k = .refused a e) :
      Step s (.act .reset a e) (s.move k .over (s.fabric.setStanding a .detached))
  | subscribe {s : Scene} {k : Nat} {a : AgentId} {e : EngineId} (hcall : s.call k = .waiting a e) :
      Step s (.act .subscribe a e)
        (s.move k (.subscribed a e (s.fabric.engine e).fanout.next)
          (s.fabric.setFanout e ((s.fabric.engine e).fanout.subscribe
            (.responder a (s.fabric.engine e).identity)).1))
  | settle {s : Scene} {k : Nat} {a : AgentId} {e : EngineId} {r : SubscriptionId}
      (hcall : s.call k = .subscribed a e r) :
      Step s (.act .settle a e) (s.move k .over (s.fabric.setStanding a (.joined e r)))
  | drop {s : Scene} {k : Nat} {a : AgentId} {e : EngineId} (hcall : s.call k = .waiting a e) :
      Step s (.act .drop a e) (s.move k (.dropped a e) (s.fabric.setStanding a .detached))
  | abandon {s : Scene} {k : Nat} {a : AgentId} {e : EngineId} (hcall : s.call k = .dropped a e) :
      Step s (.act .abandon a e)
        (s.move k .over (s.fabric.setDirectory e
          ((s.fabric.engine e).directory.removeLocalAgent (s.identity a) a)))
  /-- A leave begins if its agent is attached. Otherwise it fails, and nothing happens. -/
  | leave {s : Scene} {a : AgentId} {e : EngineId} {r : SubscriptionId}
      (hstanding : s.standing a = .joined e r) :
      Step s (.act .leave a e) (s.enter (.leaving a e r) (s.fabric.setStanding a .detached))
  | unsubscribe {s : Scene} {k : Nat} {a : AgentId} {e : EngineId} {r : SubscriptionId}
      (hcall : s.call k = .leaving a e r) :
      Step s (.act .unsubscribe a e)
        (s.move k (.departing a e)
          (s.fabric.setFanout e ((s.fabric.engine e).fanout.unsubscribe r)))
  | unregister {s : Scene} {k : Nat} {a : AgentId} {e : EngineId}
      (hcall : s.call k = .departing a e) :
      Step s (.act .unregister a e) (s.move k .over (s.fabric.unregister a e))
  | shutdown {s : Scene} (e : EngineId) :
      Step s (.shutdown e) ⟨s.fabric.shutdown e, s.calls⟩
  | other {s : Scene} {g : Fabric} (haloof : s.fabric.Aloof g) : Step s .other ⟨g, s.calls⟩

inductive Run (s : Scene) : List Turn → Scene → Prop
  | nil : Run s [] s
  | cons {s' s'' : Scene} {t : Turn} {ts : List Turn} (hrun : Run s ts s') (hstep : Step s' t s'') :
      Run s (t :: ts) s''

/-- No join or leave is under way. -/
def AtRest (s : Scene) : Prop := ∀ k, s.call k = .over

end Scene

namespace Fabric

variable {f g : Fabric} {a : AgentId} {e : EngineId}

/-! ## How scenes begin -/

/-- Nobody has joined or been registered yet. -/
structure Vacant (f : Fabric) : Prop where
  standing : ∀ a, (f.member a).standing = .detached
  locals : ∀ e i, (f.engine e).directory.local? i = none
  responders : ∀ e, (f.engine e).fanout.responders = []

namespace Vacant

theorem empty (supply : Nat) : (Fabric.empty supply).Vacant :=
  ⟨fun _ => rfl, fun _ _ => rfl, fun _ => rfl⟩

theorem aloof (hf : f.Vacant) (h : f.Aloof g) : g.Vacant where
  standing := fun a => (h.standing a).trans (hf.standing a)
  locals := fun e i => by
    rw [Directory.local?, h.locals]
    exact hf.locals e i
  responders := fun e => (h.responders e).trans (hf.responders e)

/-- An agent comes that has not joined. -/
theorem addAgent (hf : f.Vacant) (x : Agent) : (f.addAgent x).Vacant where
  standing := by
    intro a
    have hold := hf.standing a
    rw [member, List.getD] at hold
    rw [member, Fabric.addAgent, List.getD, List.getElem?_append]
    split
    · exact hold
    · rw [List.getElem?_singleton]
      split <;> rfl
  locals := hf.locals
  responders := hf.responders

/-- An engine comes that knows nobody. -/
theorem addEngine (hf : f.Vacant) {identity : Identity} {settings : Settings}
    {gateways : List GatewayId} {board : BoardId} {clock : Nat} :
    (f.addEngine identity settings gateways board clock).Vacant := by
  let x : Engine :=
    ⟨identity, settings, gateways, board, .empty, .empty settings.dispatch, clock, none, true⟩
  have hengine : ∀ e, ({ f with engines := f.engines ++ [x] } : Fabric).engine e = f.engine e ∨
      ({ f with engines := f.engines ++ [x] } : Fabric).engine e = x := by
    intro e
    simp only [engine, List.getD, List.getElem?_append]
    split
    · exact .inl rfl
    · next he =>
      rw [List.getElem?_singleton, List.getElem?_eq_none (Nat.le_of_not_lt he)]
      split
      · exact .inr rfl
      · exact .inl rfl
  have hadded : ({ f with engines := f.engines ++ [x] } : Fabric).Vacant := by
    refine ⟨hf.standing, fun e i => ?_, fun e => ?_⟩
    · rcases hengine e with he | he <;> rw [he]
      · exact hf.locals e i
      · rfl
    · rcases hengine e with he | he <;> rw [he]
      · exact hf.responders e
      · rfl
  have hlistens : ∀ (gs : List GatewayId) (g : Fabric),
      g.Aloof (gs.foldl (listenAt f.engines.length) g) := by
    intro gs
    induction gs with
    | nil => exact .refl
    | cons y gs ih =>
      intro g
      refine .trans ?_ (ih _)
      unfold listenAt
      split
      · exact .of_eq rfl rfl
      · exact .refl g
  exact hadded.aloof ((hlistens gateways _).trans (.schedulePass _))

end Vacant

end Fabric

end Overlay
