import Overlay.Proofs.Directory
import Overlay.Proofs.Traffic

/-!
# Meshes

A mesh is a fabric in which all engines stand for one cloud and hear one bus, each through one
gateway of its own that is open, and dispatch inline. `Site` says so, and nothing that agents do
changes it. What confirms a join is left open; that it is the agent's own announcement which has come
back (`Echoing`) matters only for what joins come to.

`Mesh` adds what is true of the agents at every moment, also while messages are on their way: an
identity is registered with one engine at most, an engine lists only who is registered with another
one, whoever is attached or about to be is registered, and whoever is attached has a responder. What
holds only between two commands is apart from it: `Settled` says that whoever is registered is
attached or about to be, `JoinsOver` that no join waits, and `Complete` that whoever is registered is
listed by all other engines.
-/

namespace Overlay

namespace Fanout

variable {ℓ : Type} {f f' : Fanout ℓ} {s : SubscriptionId} {l : ℓ}

/-- Subscriptions have numbers of their own, below the next one. -/
structure Numbered (f : Fanout ℓ) : Prop where
  below : ∀ {s l}, (s, l) ∈ f.listeners → s < f.next
  same : ∀ {s k l}, (s, k) ∈ f.listeners → (s, l) ∈ f.listeners → k = l

theorem Numbered.of_subset (h : f.Numbered) (hnext : f'.next = f.next)
    (hsub : ∀ x ∈ f'.listeners, x ∈ f.listeners) : f'.Numbered where
  below := fun hx => hnext ▸ h.below (hsub _ hx)
  same := fun hk hl => h.same (hsub _ hk) (hsub _ hl)

theorem mem_listeners_subscribe {x : SubscriptionId × ℓ} :
    x ∈ (f.subscribe l).1.listeners ↔ x ∈ f.listeners ∨ x = (f.next, l) := by
  simp [subscribe]

theorem Numbered.subscribe (h : f.Numbered) (l : ℓ) : (f.subscribe l).1.Numbered := by
  constructor
  case below =>
    intro s k hs
    rcases mem_listeners_subscribe.1 hs with hs | hs
    · exact Nat.lt_succ_of_lt (h.below hs)
    · cases hs
      exact Nat.lt_succ_self _
  case same =>
    intro s j k hj hk
    rcases mem_listeners_subscribe.1 hj with hj | hj
    · rcases mem_listeners_subscribe.1 hk with hk | hk
      · exact h.same hj hk
      · cases hk
        exact absurd (h.below hj) (Nat.lt_irrefl _)
    · cases hj
      rcases mem_listeners_subscribe.1 hk with hk | hk
      · exact absurd (h.below hk) (Nat.lt_irrefl _)
      · cases hk
        rfl

end Fanout

/-! ## What stays -/

/-- What an engine is made with and keeps. -/
structure Fixture where
  identity : Identity
  settings : Settings
  gateways : List GatewayId
  board : BoardId
  mode : Dispatch
  present : Bool

def Engine.fixture (e : Engine) : Fixture :=
  ⟨e.identity, e.settings, e.gateways, e.board, e.fanout.mode, e.present⟩

namespace Fabric

variable {f g h : Fabric} {u : Uuid} {b : BusId} {d e : EngineId} {a : AgentId} {i : Identity}

/-- Engines, ways and criteria are the same. -/
structure Still (f g : Fabric) : Prop where
  length : g.engines.length = f.engines.length
  fixture : ∀ e, (g.engine e).fixture = (f.engine e).fixture
  conduit : ∀ {x b p}, (f.gateway x).conduit = .socket b p → (g.gateway x).conduit = .socket b p
  sockets : ∀ b, (g.bus b).sockets = (f.bus b).sockets
  boards : g.boards.length = f.boards.length
  criterion : ∀ b, (g.board b).1 = (f.board b).1

theorem Still.trans (hfg : f.Still g) (hgh : g.Still h) : f.Still h where
  length := hgh.length.trans hfg.length
  fixture := fun e => (hgh.fixture e).trans (hfg.fixture e)
  conduit := fun hx => hgh.conduit (hfg.conduit hx)
  sockets := fun b => (hgh.sockets b).trans (hfg.sockets b)
  boards := hgh.boards.trans hfg.boards
  criterion := fun b => (hgh.criterion b).trans (hfg.criterion b)

theorem Aside.still (h : f.Aside g) : f.Still g where
  length := by rw [h.engines]
  fixture := fun e => by rw [engine, h.engines, engine]
  conduit := h.conduit
  sockets := h.sockets
  boards := h.boards
  criterion := h.criterion

theorem still_setMembers (members : List Member) : f.Still { f with members := members } :=
  ⟨rfl, fun _ => rfl, id, fun _ => rfl, rfl, fun _ => rfl⟩

/-- What becomes of an engine by a change: it, or an engine that is not there. -/
theorem engine_setEngine_cases (x : Engine) :
    (f.setEngine e x).engine d = f.engine d ∨ d = e ∧ (f.setEngine e x).engine d = x := by
  by_cases hde : d = e
  · subst hde
    by_cases hlt : d < f.engines.length
    · exact .inr ⟨rfl, engine_setEngine_self x hlt⟩
    · left
      rw [setEngine, List.set_eq_of_length_le (Nat.le_of_not_lt hlt)]
  · exact .inl (engine_setEngine_ne x hde)

/-- A part of engines that is the same in the new one and the old one. -/
theorem part_setEngine {α : Type} (part : Engine → α) {x : Engine}
    (hx : part x = part (f.engine e)) (d : EngineId) :
    part ((f.setEngine e x).engine d) = part (f.engine d) := by
  rcases @engine_setEngine_cases f d e x with hd | ⟨rfl, hd⟩
  · rw [hd]
  · rw [hd, hx]

theorem directory_setDirectory_cases (D : Directory) :
    ((f.setDirectory e D).engine d).directory = (f.engine d).directory ∨
      d = e ∧ ((f.setDirectory e D).engine d).directory = D := by
  rcases @engine_setEngine_cases f d e { f.engine e with directory := D } with hd | ⟨hd, hD⟩
  · exact .inl (congrArg Engine.directory hd)
  · exact .inr ⟨hd, congrArg Engine.directory hD⟩

theorem fanout_setDirectory (D : Directory) :
    ((f.setDirectory e D).engine d).fanout = (f.engine d).fanout :=
  part_setEngine Engine.fanout (by rfl) d

theorem fanout_setFanout_cases (fanout : Fanout Hearer) :
    ((f.setFanout e fanout).engine d).fanout = (f.engine d).fanout ∨
      d = e ∧ ((f.setFanout e fanout).engine d).fanout = fanout := by
  rcases @engine_setEngine_cases f d e { f.engine e with fanout := fanout } with hd | ⟨hd, hx⟩
  · exact .inl (congrArg Engine.fanout hd)
  · exact .inr ⟨hd, congrArg Engine.fanout hx⟩

theorem still_setEngine {x : Engine} (hx : x.fixture = (f.engine e).fixture) :
    f.Still (f.setEngine e x) where
  length := length_setEngine x
  fixture := part_setEngine Engine.fixture hx
  conduit := id
  sockets := fun _ => rfl
  boards := rfl
  criterion := fun _ => rfl

theorem still_setBoard {c : BoardId} (board : Board ThreadId) : f.Still (f.setBoard c board) where
  length := rfl
  fixture := fun _ => rfl
  conduit := id
  sockets := fun _ => rfl
  boards := List.length_modify _ _ _
  criterion := by
    intro k
    by_cases hk : k = c
    · subst hk
      by_cases hlt : k < f.boards.length
      · rw [board_setBoard_self _ hlt]
      · rw [setBoard, List.modify_eq_self (Nat.le_of_not_lt hlt)]
    · rw [board_setBoard_ne _ hk]

/-! ## The site -/

/-- An engine of a cloud with one open gateway on a bus. -/
structure Wired (u : Uuid) (b : BusId) (f : Fabric) (e : EngineId) : Prop where
  identity : (f.engine e).identity = .cloud u
  present : (f.engine e).present = true
  inline : (f.engine e).fanout.mode = .inline
  gateway : ∃ x p, (f.engine e).gateways = [x] ∧ (f.gateway x).conduit = .socket b p ∧
    ((f.bus b).socket p).closed = false ∧ ((f.bus b).socket p).failing = false
  board : (f.engine e).board < f.boards.length

/-- All engines are wired, and they are those who hear the bus. -/
structure Site (u : Uuid) (b : BusId) (f : Fabric) : Prop where
  wired : ∀ {e}, e < f.engines.length → f.Wired u b e
  audience : ∀ {e}, e ∈ (f.bus b).audience ↔ e < f.engines.length

theorem Site.of_still (h : f.Site u b) (hs : f.Still g) : g.Site u b := by
  have hsocket : ∀ p, (g.bus b).socket p = (f.bus b).socket p := by
    intro p
    rw [Bus.socket, hs.sockets, Bus.socket]
  constructor
  case wired =>
    intro e he
    have w := h.wired (hs.length ▸ he)
    have hfix := hs.fixture e
    have hboard : (g.engine e).board = (f.engine e).board := congrArg Fixture.board hfix
    obtain ⟨x, p, hx, hconduit, hclosed, hfailing⟩ := w.gateway
    constructor
    case identity => exact (congrArg Fixture.identity hfix).trans w.identity
    case present => exact (congrArg Fixture.present hfix).trans w.present
    case inline => exact (congrArg Fixture.mode hfix).trans w.inline
    case gateway =>
      refine ⟨x, p, (congrArg Fixture.gateways hfix).trans hx, hs.conduit hconduit, ?_, ?_⟩
      · rw [hsocket, hclosed]
      · rw [hsocket, hfailing]
    case board => rw [hboard, hs.boards]; exact w.board
  case audience =>
    intro e
    rw [hs.length, ← h.audience, Bus.audience, hs.sockets, Bus.audience]

/-- Joins are confirmed by the agent's own announcement. -/
def Echoing (f : Fabric) : Prop :=
  ∀ e, e < f.engines.length → (f.board (f.engine e).board).1 = .echo

theorem Still.board_engine (hs : f.Still g) : (g.engine e).board = (f.engine e).board :=
  congrArg Fixture.board (hs.fixture e)

theorem Echoing.of_still (h : f.Echoing) (hs : f.Still g) : g.Echoing := by
  intro e he
  rw [hs.board_engine, hs.criterion]
  exact h e (hs.length ▸ he)

/-! ## Who is where -/

/-- An agent is registered with an engine under an identity. -/
def Hosts (f : Fabric) (e : EngineId) (i : Identity) : Prop :=
  (f.engine e).directory.isLocal i = true

def Lists (f : Fabric) (e : EngineId) (i : Identity) : Prop :=
  (f.engine e).directory.isRemote i = true

theorem hosts_iff : f.Hosts e i ↔ ∃ a, (f.engine e).directory.local? i = some a :=
  Directory.isLocal_iff

theorem lists_iff : f.Lists e i ↔ ∃ s, (f.engine e).directory.remote? i = some s :=
  Directory.isRemote_iff

theorem engine_of_length_le (he : f.engines.length ≤ e) : f.engine e = default := by
  simp [engine, List.getD, List.getElem?_eq_none he]

theorem lt_of_local? (ha : (f.engine e).directory.local? i = some a) : e < f.engines.length := by
  refine Nat.lt_of_not_le fun hle => ?_
  rw [engine_of_length_le hle] at ha
  contradiction

theorem Lists.lt (hl : f.Lists d i) : d < f.engines.length := by
  refine Nat.lt_of_not_le fun hle => ?_
  rw [Lists, engine_of_length_le hle] at hl
  contradiction

theorem lt_of_standing {s : SubscriptionId} (hs : (f.member a).standing = .joined e s) :
    a < f.members.length := by
  refine Nat.lt_of_not_le fun hle => ?_
  simp only [member, List.getD, List.getElem?_eq_none hle, Option.getD_none] at hs
  contradiction

/-- Whoever lists an agent that is registered lists it with the endpoints that it has. -/
def Faithful (f : Fabric) (a : AgentId) : Prop :=
  ∀ ⦃d e s⦄, (f.engine e).directory.local? (f.member a).agent.identity = some a →
    (f.engine d).directory.remote? (f.member a).agent.identity = some s →
    ((f.engine d).directory.contact s).endpoints = (f.member a).agent.endpoints

/-- What is true of a mesh at every moment. -/
structure Mesh (u : Uuid) (b : BusId) (f : Fabric) : Prop extends f.Site u b where
  sound : ∀ e, (f.engine e).directory.Sound
  kind : ∀ {a}, a < f.members.length → (f.member a).agent.identity.kind = .agent
  registered : ∀ {e i a}, (f.engine e).directory.local? i = some a →
    i.kind = .agent ∧ (f.member a).agent.identity = i
  unique : ∀ {d e i}, f.Hosts d i → f.Hosts e i → d = e
  elsewhere : ∀ {d i}, f.Lists d i → ∃ e, e ≠ d ∧ f.Hosts e i
  enrolled : ∀ {a e}, (f.member a).standing.engine? = some e →
    (f.engine e).directory.local? (f.member a).agent.identity = some a
  responds : ∀ {a e s}, (f.member a).standing = .joined e s →
    (s, .responder a (.cloud u)) ∈ (f.engine e).fanout.listeners
  numbered : ∀ e, (f.engine e).fanout.Numbered

/-- Whoever is registered is attached, or about to be. -/
def Settled (f : Fabric) : Prop :=
  ∀ ⦃e i a⦄, (f.engine e).directory.local? i = some a → (f.member a).standing.engine? = some e

def JoinsOver (f : Fabric) : Prop :=
  ∀ a e, (f.member a).standing ≠ .joining e

def Complete (f : Fabric) : Prop :=
  ∀ ⦃d e i⦄, d < f.engines.length → e ≠ d → f.Hosts e i → f.Lists d i

/-- Whoever is registered while no join waits is attached. -/
theorem Settled.joined (hs : f.Settled) (hover : f.JoinsOver)
    (ha : (f.engine e).directory.local? i = some a) : ∃ s, (f.member a).standing = .joined e s := by
  have hstands := hs ha
  cases hstanding : (f.member a).standing with
  | detached => rw [hstanding] at hstands; contradiction
  | joining d => exact absurd hstanding (hover a d)
  | joined d s =>
    rw [hstanding] at hstands
    obtain rfl : d = e := Option.some.inj hstands
    exact ⟨s, rfl⟩

namespace Mesh

/-- Whoever is attached is registered, and has a responder. -/
theorem attached (h : f.Mesh u b) {s : SubscriptionId} (ha : (f.member a).standing = .joined e s) :
    (f.engine e).directory.local? (f.member a).agent.identity = some a ∧
      (s, .responder a (.cloud u)) ∈ (f.engine e).fanout.listeners :=
  ⟨h.enrolled (by rw [ha]; rfl), h.responds ha⟩

theorem inline (h : f.Mesh u b) (e : EngineId) : (f.engine e).fanout.mode = .inline := by
  by_cases he : e < f.engines.length
  · exact (h.wired he).inline
  · rw [engine_of_length_le (Nat.le_of_not_lt he)]
    rfl

/-- An engine does not list whom it hosts. -/
theorem not_lists (h : f.Mesh u b) (hi : f.Hosts e i) : (f.engine e).directory.isRemote i = false := by
  cases hl : (f.engine e).directory.isRemote i with
  | false => rfl
  | true =>
    obtain ⟨d, hne, hd⟩ := h.elsewhere hl
    exact absurd (h.unique hd hi) hne

/-- An identity that is registered with one engine is registered with no other one. -/
theorem not_hosts (h : f.Mesh u b) (hi : f.Hosts e i) (hne : e ≠ d) :
    (f.engine d).directory.isLocal i = false := by
  cases hl : (f.engine d).directory.isLocal i with
  | false => rfl
  | true => exact absurd (h.unique hi hl) hne

/-- The identity of the cloud is that of no agent. -/
theorem cloud (h : f.Mesh u b) : (f.engine e).directory.isLocal (.cloud u) = false ∧
    (f.engine e).directory.isRemote (.cloud u) = false := by
  have hhosts : ∀ d, ¬f.Hosts d (.cloud u) := by
    intro d hd
    obtain ⟨a, ha⟩ := hosts_iff.1 hd
    exact absurd (h.registered ha).1 (by simp [Identity.cloud])
  refine ⟨Bool.eq_false_iff.2 (hhosts e), Bool.eq_false_iff.2 fun hl => ?_⟩
  obtain ⟨d, -, hd⟩ := h.elsewhere hl
  exact hhosts d hd

/-- What is sent to the cloud is meant for every engine but that of its sender. -/
theorem admits_cloud (h : f.Mesh u b) {m : Message} (he : e < f.engines.length)
    (hs : (f.engine e).directory.isLocal m.sender = false) (hr : m.recipient = .cloud u) :
    (f.engine e).admits m = true := by
  simp [Engine.admits, hs, hr, h.cloud.2, (h.wired he).identity]

/-- What is sent to an agent is meant for its engine. -/
theorem admits_agent (h : f.Mesh u b) {m : Message}
    (hs : (f.engine e).directory.isLocal m.sender = false) (hr : f.Hosts e m.recipient) :
    (f.engine e).admits m = true := by
  have hlocal : (f.engine e).directory.isLocal m.recipient = true := hr
  simp [Engine.admits, hs, h.not_lists hr, hlocal]

/-- Two agents that are registered under one identity are the same. -/
theorem eq_of_local? (h : f.Mesh u b) {c : AgentId} (ha : (f.engine d).directory.local? i = some a)
    (hc : (f.engine e).directory.local? i = some c) : a = c := by
  obtain rfl := h.unique (hosts_iff.2 ⟨a, ha⟩) (hosts_iff.2 ⟨c, hc⟩)
  exact Option.some.inj (ha.symm.trans hc)

end Mesh

/-! ## Where only standings and listeners change -/

/-- Directories and agents are the same, but not how agents stand. -/
structure Alike (f g : Fabric) : Prop extends f.Still g where
  directory : ∀ e, (g.engine e).directory = (f.engine e).directory
  members : g.members.length = f.members.length
  agent : ∀ a, (g.member a).agent = (f.member a).agent

namespace Alike

theorem trans (hfg : f.Alike g) (hgh : g.Alike h) : f.Alike h where
  toStill := hfg.toStill.trans hgh.toStill
  directory := fun e => (hgh.directory e).trans (hfg.directory e)
  members := hgh.members.trans hfg.members
  agent := fun a => (hgh.agent a).trans (hfg.agent a)

theorem of_engines (hs : f.Still g) (he : g.engines = f.engines) (hm : g.members = f.members) :
    f.Alike g where
  toStill := hs
  directory := fun e => by rw [engine, he, engine]
  members := by rw [hm]
  agent := fun a => by rw [member, hm, member]

theorem setBoard {c : BoardId} (board : Board ThreadId) : f.Alike (f.setBoard c board) :=
  .of_engines (still_setBoard board) rfl rfl

theorem setStanding (s : Standing) : f.Alike (f.setStanding a s) where
  toStill := still_setMembers _
  directory := fun _ => rfl
  members := List.length_modify _ _ _
  agent := by
    intro c
    by_cases hc : c = a
    · subst hc
      by_cases hlt : c < f.members.length
      · simp [Fabric.setStanding, member, List.getD, hlt]
      · rw [Fabric.setStanding, List.modify_eq_self (Nat.le_of_not_lt hlt)]
    · rw [member_setStanding_ne s hc]

/-- An engine of which only the clock, the listeners or the next pass differ. -/
theorem setEngine {x : Engine} (hx : x.fixture = (f.engine e).fixture)
    (hdir : x.directory = (f.engine e).directory) : f.Alike (f.setEngine e x) where
  toStill := still_setEngine hx
  directory := part_setEngine Engine.directory hdir
  members := rfl
  agent := fun _ => rfl

theorem hosts (hs : f.Alike g) : g.Hosts e i ↔ f.Hosts e i := by
  rw [Hosts, hs.directory, Hosts]

theorem lists (hs : f.Alike g) : g.Lists e i ↔ f.Lists e i := by
  rw [Lists, hs.directory, Lists]

theorem faithful (hs : f.Alike g) (ha : f.Faithful a) : g.Faithful a := by
  simp only [Faithful, hs.directory, hs.agent]
  exact ha

theorem complete (hs : f.Alike g) (hf : f.Complete) : g.Complete := by
  simp only [Complete, Hosts, Lists, hs.directory, hs.length]
  exact hf

end Alike

namespace Mesh

/-- A mesh in which only standings and listeners differ. -/
theorem of_alike (h : f.Mesh u b) (hs : f.Alike g)
    (henrolled : ∀ {a e}, (g.member a).standing.engine? = some e →
      (f.engine e).directory.local? (f.member a).agent.identity = some a)
    (hresponds : ∀ {a e s}, (g.member a).standing = .joined e s →
      (s, .responder a (.cloud u)) ∈ (g.engine e).fanout.listeners)
    (hnumbered : ∀ e, (g.engine e).fanout.Numbered) : g.Mesh u b where
  toSite := h.toSite.of_still hs.toStill
  sound := fun e => hs.directory e ▸ h.sound e
  kind := fun ha => hs.agent _ ▸ h.kind (hs.members ▸ ha)
  registered := fun ha => hs.agent _ ▸ h.registered (hs.directory _ ▸ ha)
  unique := fun hd he => h.unique (hs.hosts.1 hd) (hs.hosts.1 he)
  elsewhere := by
    intro d i hl
    obtain ⟨e, hne, he⟩ := h.elsewhere (hs.lists.1 hl)
    exact ⟨e, hne, hs.hosts.2 he⟩
  enrolled := by
    intro a e ha
    rw [hs.directory, hs.agent]
    exact henrolled ha
  responds := hresponds
  numbered := hnumbered

/-- A mesh in which engines and agents are the same. -/
theorem of_engines (h : f.Mesh u b) (hs : f.Still g) (he : g.engines = f.engines)
    (hm : g.members = f.members) : g.Mesh u b := by
  have hengine : ∀ e, g.engine e = f.engine e := fun e => by rw [engine, he, engine]
  have hmember : ∀ a, g.member a = f.member a := fun a => by rw [member, hm, member]
  refine h.of_alike (.of_engines hs he hm) ?_ ?_ ?_
  · intro a e ha
    exact h.enrolled (hmember a ▸ ha)
  · intro a e s ha
    rw [hengine]
    exact h.responds (hmember a ▸ ha)
  · intro e
    rw [hengine]
    exact h.numbered e

end Mesh

/-! ## Where only contacts change -/

/-- Nothing that agents do has happened; what differs are contacts, logs and confirmations. -/
structure Frame (f g : Fabric) : Prop extends f.Still g where
  members : g.members = f.members
  clock : ∀ e, (g.engine e).clock = (f.engine e).clock
  fanout : ∀ e, (g.engine e).fanout = (f.engine e).fanout
  locals : ∀ e, (g.engine e).directory.locals = (f.engine e).directory.locals
  board : ∀ b, (f.board b).2.Later (g.board b).2

namespace Frame

theorem trans (hfg : f.Frame g) (hgh : g.Frame h) : f.Frame h where
  toStill := hfg.toStill.trans hgh.toStill
  members := hgh.members.trans hfg.members
  clock := fun e => (hgh.clock e).trans (hfg.clock e)
  fanout := fun e => (hgh.fanout e).trans (hfg.fanout e)
  locals := fun e => (hgh.locals e).trans (hfg.locals e)
  board := fun b => (hfg.board b).trans (hgh.board b)

theorem member (hf : f.Frame g) (a : AgentId) : g.member a = f.member a := by
  rw [Fabric.member, hf.members, Fabric.member]

theorem local? (hf : f.Frame g) :
    (g.engine e).directory.local? i = (f.engine e).directory.local? i := by
  rw [Directory.local?, hf.locals, Directory.local?]

theorem hosts (hf : f.Frame g) : g.Hosts e i ↔ f.Hosts e i := by
  rw [hosts_iff, hosts_iff, hf.local?]

/-- A fabric of which only the directory of one engine differs, and not in its registrations. -/
theorem setDirectory {D : Directory} (hD : D.locals = (f.engine e).directory.locals) :
    f.Frame (f.setDirectory e D) := by
  constructor
  case toStill => exact still_setEngine rfl
  case members => rfl
  case clock => exact part_setEngine Engine.clock (by rfl)
  case fanout => exact fun _ => fanout_setDirectory D
  case locals => exact part_setEngine (·.directory.locals) hD
  case board => exact fun _ => .refl _

end Frame

theorem Aside.frame (h : f.Aside g) : f.Frame g where
  toStill := h.still
  members := h.members
  clock := fun e => by rw [engine, h.engines, engine]
  fanout := fun e => by rw [engine, h.engines, engine]
  locals := fun e => by rw [engine, h.engines, engine]
  board := h.board

/-- A recorder has noted a message. -/
theorem frame_note {m : Message} (name : String) :
    f.Frame { f with heard := (name, m) :: f.heard } :=
  ⟨⟨rfl, fun _ => rfl, id, fun _ => rfl, rfl, fun _ => rfl⟩, rfl, fun _ => rfl, fun _ => rfl,
    fun _ => rfl, fun _ => .refl _⟩

/-- A mesh in which only contacts differ, and every new one is of an agent elsewhere. -/
theorem Mesh.of_frame (h : f.Mesh u b) (hf : f.Frame g)
    (hsound : ∀ e, (g.engine e).directory.Sound)
    (hlists : ∀ {d i}, g.Lists d i → f.Lists d i ∨ ∃ e, e ≠ d ∧ f.Hosts e i) : g.Mesh u b where
  toSite := h.toSite.of_still hf.toStill
  sound := hsound
  kind := by
    intro a ha
    rw [hf.member]
    exact h.kind (hf.members ▸ ha)
  registered := by
    intro e i a ha
    rw [hf.member]
    exact h.registered (hf.local?.symm.trans ha)
  unique := fun hd he => h.unique (hf.hosts.1 hd) (hf.hosts.1 he)
  elsewhere := by
    intro d i hl
    have hthere : ∃ e, e ≠ d ∧ f.Hosts e i := (hlists hl).elim h.elsewhere id
    obtain ⟨e, hne, he⟩ := hthere
    exact ⟨e, hne, hf.hosts.2 he⟩
  enrolled := by
    intro a e ha
    rw [hf.member] at ha ⊢
    rw [hf.local?]
    exact h.enrolled ha
  responds := by
    intro a e s ha
    rw [hf.member] at ha
    rw [hf.fanout]
    exact h.responds ha
  numbered := fun e => hf.fanout e ▸ h.numbered e

theorem Settled.of_frame (h : f.Settled) (hf : f.Frame g) : g.Settled := by
  intro e i a ha
  rw [hf.member]
  exact h (hf.local?.symm.trans ha)

theorem JoinsOver.of_frame (h : f.JoinsOver) (hf : f.Frame g) : g.JoinsOver := by
  intro a e
  rw [hf.member]
  exact h a e

end Fabric

end Overlay
