import Overlay.Fabric.Command
import Overlay.Proofs.Mesh.Traffic

/-!
# Joining a mesh

A join registers the agent, opens a session, and announces the agent. The announcement reaches all
engines before the sending ends: the other ones list the agent then, and its own one has confirmed
the session if it is the announcement that does so. Then the join does not have to wait. Otherwise it
may wait for as long as it likes, until it is confirmed or its time is up, and the agent is attached
in the end (`startJoin_cases`, `attaches_resume`).
-/

namespace Overlay

namespace Fabric

variable {f g h : Fabric} {u : Uuid} {b : BusId} {c d e : EngineId} {a : AgentId} {i : Identity}
  {s : SessionId} {t : ThreadId} {cutoff : Option Nat}

/-! ## Registration -/

theorem standing_setStanding {k : AgentId} (s : Standing) (ha : a < f.members.length) :
    ((f.setStanding a s).member k).standing = if k = a then s else (f.member k).standing := by
  by_cases hk : k = a
  · subst hk
    rw [if_pos rfl, standing_setStanding_self s ha]
  · rw [if_neg hk, member_setStanding_ne s hk]

theorem agent_setStanding {k : AgentId} (s : Standing) :
    ((f.setStanding a s).member k).agent = (f.member k).agent :=
  (Alike.setStanding s).agent k

/-- An agent has been registered with an engine, as far as that matters to others. -/
structure Enrolled (a : AgentId) (e : EngineId) (f g : Fabric) : Prop extends f.Still g where
  /-- Nobody was registered under its identity. -/
  free : (f.engine e).directory.local? (f.member a).agent.identity = none
  detached : (f.member a).standing = .detached
  members : g.members.length = f.members.length
  agent : ∀ k, (g.member k).agent = (f.member k).agent
  standing : ∀ k, (g.member k).standing = if k = a then .joining e else (f.member k).standing
  fanout : ∀ d, (g.engine d).fanout = (f.engine d).fanout
  local? : ∀ d j, (g.engine d).directory.local? j =
    if d = e ∧ j = (f.member a).agent.identity then some a else (f.engine d).directory.local? j
  remotes : ∀ d, (g.engine d).directory.remotes = (f.engine d).directory.remotes
  slots : ∀ d, (g.engine d).directory.slots = (f.engine d).directory.slots

theorem enrolled_of_enroll (ha : a < f.members.length) (he : e < f.engines.length)
    (hg : f.enroll a e = .ok g) : Enrolled a e f g := by
  unfold enroll at hg
  simp only at hg
  split at hg
  · next hdetached =>
    split at hg
    · next D hD =>
      obtain rfl := Except.ok.inj hg
      have ⟨hfree, hlocals⟩ := Directory.insertLocal?_eq_some hD
      have hself : ((f.setStanding a (.joining e)).setDirectory e D).engine e =
          { f.engine e with directory := D } := engine_setEngine_self _ he
      have hother : ∀ {d}, d ≠ e →
          ((f.setStanding a (.joining e)).setDirectory e D).engine d = f.engine d :=
        fun hd => engine_setEngine_ne _ hd
      constructor
      case toStill => exact (still_setMembers _).trans (still_setEngine rfl)
      case free => exact hfree
      case detached => exact hdetached
      case members => exact List.length_modify _ _ _
      case agent => exact fun k => agent_setStanding _
      case standing => exact fun k => standing_setStanding _ ha
      case fanout =>
        intro d
        by_cases hd : d = e
        · subst hd
          rw [hself]
        · rw [hother hd]
      case local? =>
        intro d j
        by_cases hd : d = e
        · subst hd
          rw [hself, hlocals]
          simp [Directory.local?]
        · rw [hother hd, if_neg fun hde => hd hde.1]
      case remotes =>
        intro d
        by_cases hd : d = e
        · subst hd
          rw [hself, hlocals]
        · rw [hother hd]
      case slots =>
        intro d
        by_cases hd : d = e
        · subst hd
          rw [hself, hlocals]
        · rw [hother hd]
    · contradiction
  · contradiction

/-- A detached agent of an identity that is free is registered. -/
theorem enroll_ok (hdetached : (f.member a).standing = .detached)
    (hfree : ¬f.Hosts e (f.member a).agent.identity) : ∃ g, f.enroll a e = .ok g := by
  unfold enroll
  simp only [hdetached]
  have hcontains : (f.engine e).directory.locals.contains (f.member a).agent.identity = false :=
    Bool.eq_false_iff.2 hfree
  simp [Directory.insertLocal?, Register.add?, hcontains]

namespace Enrolled

variable (hg : Enrolled a e f g)
include hg

theorem lists : g.Lists d i ↔ f.Lists d i := by
  rw [Lists, Directory.isRemote, hg.remotes, Lists, Directory.isRemote]

theorem remote? : (g.engine d).directory.remote? i = (f.engine d).directory.remote? i := by
  rw [Directory.remote?, hg.remotes, Directory.remote?]

theorem contact (s : Slot) : (g.engine d).directory.contact s = (f.engine d).directory.contact s := by
  rw [Directory.contact, hg.slots, Directory.contact]

theorem local?_self :
    (g.engine e).directory.local? (g.member a).agent.identity = some a := by
  rw [hg.local?, hg.agent, if_pos ⟨rfl, rfl⟩]

theorem hosts : g.Hosts d i ↔ f.Hosts d i ∨ d = e ∧ i = (f.member a).agent.identity := by
  rw [hosts_iff, hosts_iff, hg.local?]
  split
  · next hde => simp [hde]
  · next hde => simp [hde]

/-- Nobody is registered under the identity, if it is at most with this engine. -/
theorem not_hosts (halone : ∀ d, f.Hosts d (f.member a).agent.identity → d = e) :
    ¬f.Hosts d (f.member a).agent.identity := by
  intro hd
  obtain rfl := halone d hd
  obtain ⟨k, hk⟩ := hosts_iff.1 hd
  rw [hg.free] at hk
  contradiction

theorem mesh (h : f.Mesh u b) (ha : a < f.members.length)
    (halone : ∀ d, f.Hosts d (f.member a).agent.identity → d = e) : g.Mesh u b := by
  have hnobody := fun d => @not_hosts f g d e a hg halone
  constructor
  case toSite => exact h.toSite.of_still hg.toStill
  case sound => exact fun d => (h.sound d).of_eq (hg.remotes d) (hg.slots d)
  case kind =>
    intro k hk
    rw [hg.agent]
    exact h.kind (hg.members ▸ hk)
  case registered =>
    intro d i k hk
    rw [hg.local?] at hk
    rw [hg.agent]
    split at hk
    · next hde =>
      obtain rfl := Option.some.inj hk
      exact ⟨hde.2 ▸ h.kind ha, hde.2.symm⟩
    · exact h.registered hk
  case unique =>
    intro c d i hc hd
    rcases hg.hosts.1 hc with hc | ⟨rfl, rfl⟩
    · rcases hg.hosts.1 hd with hd | ⟨rfl, rfl⟩
      · exact h.unique hc hd
      · exact halone c hc
    · rcases hg.hosts.1 hd with hd | ⟨rfl, -⟩
      · exact (halone d hd).symm
      · rfl
  case elsewhere =>
    intro d i hl
    obtain ⟨c, hne, hc⟩ := h.elsewhere (hg.lists.1 hl)
    exact ⟨c, hne, hg.hosts.2 (.inl hc)⟩
  case enrolled =>
    intro k d hk
    rw [hg.standing] at hk
    rw [hg.local?, hg.agent]
    split at hk
    · next hka =>
      obtain rfl : e = d := Option.some.inj hk
      rw [hka, if_pos ⟨rfl, rfl⟩]
    · have hlocal := h.enrolled hk
      rw [if_neg]
      · exact hlocal
      · exact fun hde => hnobody d (hosts_iff.2 ⟨k, hde.2 ▸ hlocal⟩)
  case responds =>
    intro k d s hk
    rw [hg.standing] at hk
    rw [hg.fanout]
    split at hk
    · contradiction
    · exact h.responds hk
  case numbered => exact fun d => hg.fanout d ▸ h.numbered d

/-- Nobody lists the agent that has just been registered, so nothing is wrong about it. -/
theorem faithful (h : f.Mesh u b) (halone : ∀ d, f.Hosts d (f.member a).agent.identity → d = e)
    {k : AgentId} (hk : f.Faithful k) : g.Faithful k := by
  intro c d s hd hs
  rw [hg.agent] at hd hs ⊢
  rw [hg.remote?] at hs
  rw [hg.local?] at hd
  rw [hg.contact]
  split at hd
  · next hde =>
    obtain rfl := Option.some.inj hd
    obtain ⟨c', -, hc'⟩ := h.elsewhere (lists_iff.2 ⟨s, hs⟩)
    exact absurd hc' (hg.not_hosts halone)
  · exact hk hd hs

end Enrolled

/-! ## Sessions -/

/-- A session counts for an agent at an engine, and nobody waits on it yet. -/
structure Awaits (f : Fabric) (e : EngineId) (s : SessionId) (i : Identity) : Prop where
  board : (f.engine e).board < f.boards.length
  current : (f.board (f.engine e).board).2.current.get? i = some s
  session : s < (f.board (f.engine e).board).2.sessions.length
  waiters : ((f.board (f.engine e).board).2.session s).waiters = []

/-- A confirmation is at hand in a session at an engine. -/
def Confirmed (f : Fabric) (e : EngineId) (s : SessionId) : Prop :=
  ((f.board (f.engine e).board).2.session s).confirmed = true

theorem Awaits.of_frame (hw : f.Awaits e s i) (hf : f.Frame g) : g.Awaits e s i := by
  have hlater := hf.board (f.engine e).board
  constructor
  case board => rw [hf.board_engine, hf.boards]; exact hw.board
  case current => rw [hf.board_engine, hlater.current, hw.current]
  case session => rw [hf.board_engine, hlater.length]; exact hw.session
  case waiters => rw [hf.board_engine]; exact hlater.waiters hw.waiters

theorem Confirmed.of_frame (hc : f.Confirmed e s) (hf : f.Frame g) : g.Confirmed e s := by
  rw [Confirmed, hf.board_engine]
  exact (hf.board _).confirmed hc

/-- A session has been opened for an agent at an engine: it counts, and nothing else has changed. -/
structure Opened (a : AgentId) (e : EngineId) (f g : Fabric) (j : Join) : Prop
    extends f.Still g where
  engines : g.engines = f.engines
  members : g.members = f.members
  agent : j.agent = a
  engine : j.engine = e
  awaits : g.Awaits e j.session (f.member a).agent.identity

theorem opened_openSession (hb : (f.engine e).board < f.boards.length) :
    Opened a e f (f.openSession a e).1 (f.openSession a e).2 := by
  have hboard : ((f.openSession a e).1.board (f.engine e).board).2 =
      ((f.board (f.engine e).board).2.start (f.member a).agent.identity).1 := by
    rw [openSession, board_setBoard_self _ hb]
  have hsame : ((f.openSession a e).1.engine e).board = (f.engine e).board := rfl
  constructor
  case toStill => exact still_setBoard _
  case engines => rfl
  case members => rfl
  case agent => rfl
  case engine => rfl
  case awaits =>
    constructor
    case board => rw [hsame, openSession, (still_setBoard _).boards]; exact hb
    case current => rw [hsame, hboard]; simp [Board.start, openSession]
    case session => rw [hsame, hboard]; simp [Board.start, openSession]
    case waiters =>
      rw [hsame, hboard]
      simp [Board.start, Board.session, openSession, List.getD]

/-- The agent's own announcement confirms its session when it comes back. -/
theorem confirmed_inspect (hw : f.Awaits e s i)
    (hecho : (f.board (f.engine e).board).1 = .echo) (uuid : Uuid) (recipient : Identity)
    (endpoints : EndpointSet) :
    (f.inspect e (.presence uuid i recipient endpoints)).Confirmed e s := by
  have hreceived := Board.confirmed_receive (m := .presence uuid i recipient endpoints) hw.current
    (show Criterion.echo _ i = true by
      simp [Criterion.echo, Message.presence, Message.withPayload, Message.plain, Payload.arrival,
        Payload.isPresent])
    hw.session hw.waiters
  unfold inspect
  simp only
  rw [hecho]
  have hset := board_setBoard_self (f := f)
    ((f.board (f.engine e).board).2.receive .echo (.presence uuid i recipient endpoints)).1 hw.board
  refine Confirmed.of_frame ?_ (aside_releaseThreads _).frame
  unfold Confirmed
  change (((f.setBoard (f.engine e).board _).board (f.engine e).board).2.session s).confirmed = true
  rw [hset]
  exact hreceived

/-! ## The announcement -/

def announcement (f : Fabric) (a : AgentId) (e : EngineId) : Message :=
  .presence f.fresh.1 (f.member a).agent.identity (f.engine e).identity (f.member a).agent.endpoints

theorem announceArrival_eq : f.announceArrival a e = (f.fresh.2.send e (f.announcement a e)).1 := rfl

theorem askAround_eq : f.askAround a e = (f.fresh.2.send e
    (.discovery f.fresh.1 (f.member a).agent.identity (f.engine e).identity)).1 := rfl

theorem travels_announcement (h : f.Mesh u b)
    (ha : (f.engine e).directory.local? (f.member a).agent.identity = some a) :
    f.fresh.2.Travels u b (f.announcement a e) :=
  ⟨h.flows flows_fresh, truthful_presence (f := f.fresh.2) f.fresh.1 (f.engine e).identity ha⟩

theorem flows_announceArrival (h : f.Mesh u b)
    (ha : (f.engine e).directory.local? (f.member a).agent.identity = some a) :
    f.Flows (f.announceArrival a e) := by
  rw [announceArrival_eq]
  exact flows_fresh.trans (flows_send (travels_announcement h ha))

theorem flows_askAround (h : f.Mesh u b) : f.Flows (f.askAround a e) := by
  rw [askAround_eq]
  exact flows_fresh.trans (flows_send ⟨h.flows flows_fresh, truthful_plain _ (by decide) _ _⟩)

theorem Flows.listed (hf : f.Flows g) (hl : f.Lists d i) : g.Lists d i := by
  obtain ⟨s, hs⟩ := lists_iff.1 hl
  exact lists_iff.2 ⟨s, hf.known hs⟩

/-- The announcement reaches all other engines: they list the agent. -/
theorem lists_announceArrival (h : f.Mesh u b)
    (ha : (f.engine e).directory.local? (f.member a).agent.identity = some a)
    (hd : d < f.engines.length) (hne : e ≠ d) :
    (f.announceArrival a e).Lists d (f.member a).agent.identity := by
  have hm := travels_announcement h ha
  rw [announceArrival_eq]
  apply sendBy_reaches (Q := fun g => g.Lists d (f.member a).agent.identity) closed_flows
    (keeps_flows levels) Flows.listed hm.1 (lt_of_local? ha) hd hm hm.carried
  intro g hg
  have hmesh := hm.1.flows hg
  have hlen : d < g.engines.length := hg.length ▸ hd
  have hhost : g.Hosts e (f.member a).agent.identity := hg.hosts.2 (hosts_iff.2 ⟨a, ha⟩)
  have hadm := hmesh.admits_cloud (m := f.announcement a e) hlen (hmesh.not_hosts hhost hne)
    (h.wired (lt_of_local? ha)).identity
  apply closed_flows.receiveBy_reaches (Q := fun g => g.Lists d (f.member a).agent.identity)
    processing_flows (keeps_flows 3) Flows.listed (closed_flows.stable hg hm)
    (hmesh.wired hlen).present hadm
  intro g' now hg'
  have hlen' : d < g'.engines.length := hg'.length ▸ hlen
  change (g'.setEngine d _).Lists d _
  rw [Lists, engine_setEngine_self _ hlen']
  exact Directory.isRemote_announce.trans (by simp [announcement, Message.presence,
    Message.withPayload, Message.plain])

/-- The announcement comes back to the agent's own engine and confirms its session. -/
theorem confirmed_announceArrival (h : f.Mesh u b)
    (hecho : (f.board (f.engine e).board).1 = .echo)
    (ha : (f.engine e).directory.local? (f.member a).agent.identity = some a)
    (hw : f.Awaits e s (f.member a).agent.identity) : (f.announceArrival a e).Confirmed e s := by
  have hm := travels_announcement h ha
  have hlt := lt_of_local? ha
  rw [announceArrival_eq]
  apply sendBy_reaches (Q := fun g => g.Confirmed e s) closed_flows (keeps_flows levels)
    (fun hf hc => hc.of_frame hf.toFrame) hm.1 hlt hlt hm hm.carried
  intro g hg
  have hwired := (hm.1.flows hg).wired (hg.length ▸ hlt)
  have hg' : f.Frame g := aside_fresh.frame.trans hg.toFrame
  have hconfirmed : (g.inspect e (f.announcement a e)).Confirmed e s :=
    confirmed_inspect (hw.of_frame hg') (by rw [hg'.board_engine, hg'.criterion, hecho]) _ _ _
  have hafter := closed_flows.after_inspect (e := e) processing_flows (keeps_flows 3)
    (closed_flows.stable hg hm)
  change (receiveBy _ g e _).Confirmed e s
  rw [receiveBy, if_pos hwired.present]
  exact hconfirmed.of_frame hafter.toFrame

/-! ## The end -/

theorem alike_attach : f.Alike (f.attach a e) := by
  have hlisten : f.Alike (f.setFanout e
      ((f.engine e).fanout.subscribe (.responder a (f.engine e).identity)).1) := .setEngine rfl rfl
  exact hlisten.trans (.setStanding _)

theorem standing_attach (ha : a < f.members.length) (k : AgentId) :
    ((f.attach a e).member k).standing =
      if k = a then .joined e (f.engine e).fanout.next else (f.member k).standing :=
  standing_setStanding _ ha

theorem fanout_attach (he : e < f.engines.length) (d : EngineId) :
    ((f.attach a e).engine d).fanout =
      if d = e then ((f.engine e).fanout.subscribe (.responder a (f.engine e).identity)).1
      else (f.engine d).fanout := by
  change ((f.setEngine e _).engine d).fanout = _
  by_cases hd : d = e
  · subst hd
    rw [if_pos rfl, engine_setEngine_self _ he]
    rfl
  · rw [if_neg hd, engine_setEngine_ne _ hd]

/-- An agent that is registered is attached. -/
theorem mesh_attach (h : f.Mesh u b) (ha : a < f.members.length)
    (hlocal : (f.engine e).directory.local? (f.member a).agent.identity = some a) :
    (f.attach a e).Mesh u b := by
  have he := lt_of_local? hlocal
  apply h.of_alike alike_attach
  · intro k d hk
    rw [standing_attach ha] at hk
    split at hk
    · next hka =>
      subst hka
      obtain rfl : e = d := Option.some.inj hk
      exact hlocal
    · exact h.enrolled hk
  · intro k d s hk
    rw [standing_attach ha] at hk
    rw [fanout_attach he, (h.wired he).identity]
    split at hk
    · next hka =>
      subst hka
      cases hk
      simp [Fanout.mem_listeners_subscribe]
    · have hmem := h.responds hk
      split
      · next hde =>
        subst hde
        exact Fanout.mem_listeners_subscribe.2 (.inl hmem)
      · exact hmem
  · intro d
    rw [fanout_attach he]
    split
    · exact (h.numbered e).subscribe _
    · exact h.numbered d

/-- What the end of a wait does: the agent is attached to the engine with which it is registered. -/
structure Attaches (u : Uuid) (b : BusId) (a : AgentId) (e : EngineId) (f g : Fabric) : Prop
    extends f.Alike g where
  mesh : g.Mesh u b
  joined : ∃ s, (g.member a).standing = .joined e s
  standing : ∀ {k}, k ≠ a → (g.member k).standing = (f.member k).standing

theorem attaches_attach (h : f.Mesh u b) (ha : a < f.members.length)
    (hlocal : (f.engine e).directory.local? (f.member a).agent.identity = some a) :
    Attaches u b a e f (f.attach a e) where
  toAlike := alike_attach
  mesh := mesh_attach h ha hlocal
  joined := ⟨_, by rw [standing_attach ha, if_pos rfl]⟩
  standing := fun hk => by rw [standing_attach ha, if_neg hk]

/-- The wait may end after something that concerns no agent. -/
theorem Attaches.after (hgh : Attaches u b a e g h) (hfg : f.Alike g) (hm : g.members = f.members) :
    Attaches u b a e f h where
  toAlike := hfg.trans hgh.toAlike
  mesh := hgh.mesh
  joined := hgh.joined
  standing := fun hk => by rw [hgh.standing hk, member, hm, member]

theorem Attaches.settled (hg : Attaches u b a e f g) (hs : f.Settled)
    (hjoining : (f.member a).standing = .joining e) : g.Settled := by
  intro d i k hk
  rw [hg.directory] at hk
  by_cases hka : k = a
  · subst hka
    obtain ⟨s, hjoined⟩ := hg.joined
    have hstands := hs hk
    rw [hjoining] at hstands
    rw [hjoined]
    exact hstands
  · rw [hg.standing hka]
    exact hs hk

/-- An agent that is about to join comes to the end of its wait. -/
theorem attaches_finishJoin (h : f.Mesh u b) {j : Join}
    (hjoining : (f.member j.agent).standing = .joining j.engine) :
    Attaches u b j.agent j.engine f (f.finishJoin j t) := by
  have hlt : j.agent < f.members.length := by
    refine Nat.lt_of_not_le fun hle => ?_
    simp only [member, List.getD, List.getElem?_eq_none hle, Option.getD_none] at hjoining
    contradiction
  have hreleased : f.Alike (f.releaseSession j t) := Alike.setBoard _
  have hmesh : (f.releaseSession j t).Mesh u b := h.of_engines hreleased.toStill rfl rfl
  have hlocal := h.enrolled (a := j.agent) (e := j.engine) (by rw [hjoining]; rfl)
  exact (attaches_attach hmesh hlt hlocal).after hreleased rfl

/-- A thread looks again at a join that nothing cuts off: the join waits on, if it has time left, or
the agent is attached. -/
theorem attaches_resume (h : f.Mesh u b) {j : Join} (start deadline : Nat)
    (hjoining : (f.member j.agent).standing = .joining j.engine) :
    (f.resume t (.join j start deadline none)).1 = f ∧ f.now < deadline ∨
      Attaches u b j.agent j.engine f (f.resume t (.join j start deadline none)).1 := by
  unfold resume
  dsimp only
  split
  · right
    have hsame : f.Alike { f with confirmed := f.confirmed.filter (· ≠ t) } :=
      .of_engines ⟨rfl, fun _ => rfl, id, fun _ => rfl, rfl, fun _ => rfl⟩ rfl rfl
    exact (attaches_finishJoin (h.of_engines hsame.toStill rfl rfl) hjoining).after hsame rfl
  · split
    · exact .inr (attaches_finishJoin h hjoining)
    · next hlater =>
      rw [earliest, if_neg hlater]
      exact .inl ⟨rfl, Nat.lt_of_not_le hlater⟩

/-! ## The whole join -/

/-- What a join does up to the point where it waits, or need not wait. -/
structure Enters (u : Uuid) (b : BusId) (a : AgentId) (e : EngineId) (f g : Fabric) : Prop
    extends f.Still g where
  mesh : g.Mesh u b
  members : g.members.length = f.members.length
  agent : ∀ k, (g.member k).agent = (f.member k).agent
  standing : ∀ k, (g.member k).standing = if k = a then .joining e else (f.member k).standing
  local? : ∀ {d i}, (g.engine d).directory.local? i =
    if d = e ∧ i = (f.member a).agent.identity then some a else (f.engine d).directory.local? i
  known : ∀ {d i}, f.Lists d i → g.Lists d i
  listed : ∀ {d}, d < f.engines.length → e ≠ d → g.Lists d (f.member a).agent.identity
  faithful : ∀ {k}, f.Faithful k → g.Faithful k

/-- The part of a join up to its wait by its own parts: the agent is registered, something is
announced by which others come to list it, and in between only boards change. -/
theorem Enrolled.enters {v w x : Fabric} (hg : Enrolled a e f g) (h : f.Mesh u b)
    (halone : ∀ d, f.Hosts d (f.member a).agent.identity → d = e) (hv : g.Alike v)
    (hvw : v.Flows w) (hwx : w.Alike x) (hmembers : x.members = g.members) (hx : x.Mesh u b)
    (hlisted : ∀ {d}, d < f.engines.length → e ≠ d → w.Lists d (f.member a).agent.identity) :
    Enters u b a e f x := by
  have hmember : ∀ k, x.member k = g.member k := fun k => by rw [member, hmembers, member]
  constructor
  case toStill => exact hg.toStill.trans (hv.toStill.trans (hvw.toStill.trans hwx.toStill))
  case mesh => exact hx
  case members => rw [hmembers, hg.members]
  case agent =>
    intro k
    rw [hmember, hg.agent]
  case standing =>
    intro k
    rw [hmember, hg.standing]
  case local? =>
    intro d i
    rw [hwx.directory, hvw.local?, hv.directory, hg.local?]
  case known =>
    intro d i hl
    exact hwx.lists.2 (hvw.listed (hv.lists.2 (hg.lists.2 hl)))
  case listed =>
    intro d hd hne
    exact hwx.lists.2 (hlisted hd hne)
  case faithful =>
    intro k hk
    exact hwx.faithful (hvw.faithful (hv.faithful (hg.faithful h halone hk)))

namespace Enters

variable (hg : Enters u b a e f g)
include hg

theorem local?_self : (g.engine e).directory.local? (g.member a).agent.identity = some a := by
  rw [hg.local?, hg.agent, if_pos ⟨rfl, rfl⟩]

/-- Whoever is registered is attached or about to be, the agent that joins included. -/
theorem settled (hs : f.Settled) : g.Settled := by
  intro d i k hk
  by_cases hka : k = a
  · subst hka
    have hhere : g.Hosts e i := by
      have hidentity := (hg.mesh.registered hk).2
      exact hosts_iff.2 ⟨k, hidentity ▸ hg.local?_self⟩
    obtain rfl := hg.mesh.unique (hosts_iff.2 ⟨k, hk⟩) hhere
    rw [hg.standing, if_pos rfl]
    rfl
  · rw [hg.local?] at hk
    split at hk
    · exact absurd (Option.some.inj hk).symm hka
    · rw [hg.standing, if_neg hka]
      exact hs hk

theorem joining : (g.member a).standing = .joining e := by
  rw [hg.standing, if_pos rfl]

end Enters

/-- What a completed join does. -/
structure Welcomes (u : Uuid) (b : BusId) (a : AgentId) (e : EngineId) (f g : Fabric) : Prop
    extends f.Still g where
  mesh : g.Mesh u b
  agent : ∀ k, (g.member k).agent = (f.member k).agent
  joined : ∃ s, (g.member a).standing = .joined e s
  standing : ∀ {k}, k ≠ a → (g.member k).standing = (f.member k).standing
  local? : ∀ {d i}, (g.engine d).directory.local? i =
    if d = e ∧ i = (f.member a).agent.identity then some a else (f.engine d).directory.local? i
  known : ∀ {d i}, f.Lists d i → g.Lists d i
  listed : ∀ {d}, d < f.engines.length → e ≠ d → g.Lists d (f.member a).agent.identity
  faithful : ∀ {k}, f.Faithful k → g.Faithful k

theorem Enters.welcomes (hg : Enters u b a e f g) (hh : Attaches u b a e g h) :
    Welcomes u b a e f h where
  toStill := hg.toStill.trans hh.toStill
  mesh := hh.mesh
  agent := fun k => (hh.agent k).trans (hg.agent k)
  joined := hh.joined
  standing := fun hk => by rw [hh.standing hk, hg.standing, if_neg hk]
  local? := by
    intro d i
    rw [hh.directory, hg.local?]
  known := fun hl => hh.lists.2 (hg.known hl)
  listed := fun hd hne => hh.lists.2 (hg.listed hd hne)
  faithful := fun hk => hh.toAlike.faithful (hg.faithful hk)

/-- A join of a registered agent up to its wait: what it does, and that it is confirmed by then if the
agent's own announcement confirms it. -/
theorem enters_beginJoin (h : f.Mesh u b) (ha : a < f.members.length) (he : e < f.engines.length)
    (halone : ∀ d, f.Hosts d (f.member a).agent.identity → d = e) (hg : f.enroll a e = .ok g) :
    ∃ w j, f.beginJoin a e = .ok (w, j) ∧ j.agent = a ∧ j.engine = e ∧
      Enters u b a e f (w.beginWait j t).1 ∧
      ((f.board (f.engine e).board).1 = .echo → (w.beginWait j t).2 = true) := by
  have henrolled := enrolled_of_enroll ha he hg
  have hmesh := henrolled.mesh h ha halone
  have hboard : (g.engine e).board < g.boards.length :=
    (hmesh.wired (henrolled.length ▸ he)).board
  obtain ⟨v, j, hv⟩ : ∃ v j, g.openSession a e = (v, j) := ⟨_, _, rfl⟩
  have hopened : Opened a e g v j := by
    have hopened := opened_openSession (a := a) hboard
    rwa [hv] at hopened
  have hvmesh := hmesh.of_engines hopened.toStill hopened.engines hopened.members
  have hvalike : g.Alike v := .of_engines hopened.toStill hopened.engines hopened.members
  have hagent : (v.member a).agent = (f.member a).agent := by
    rw [hvalike.agent, henrolled.agent]
  have hlocal : (v.engine e).directory.local? (v.member a).agent.identity = some a := by
    rw [hvalike.directory, hvalike.agent]
    exact henrolled.local?_self
  -- The session is open when the agent announces itself, and what follows does not take it back.
  have hawaits : v.Awaits e j.session (v.member a).agent.identity :=
    hvalike.agent a ▸ hopened.awaits
  have harrival := flows_announceArrival hvmesh hlocal
  have hask : (v.announceArrival a e).Flows ((v.announceArrival a e).askAround a e) :=
    flows_askAround (hvmesh.flows harrival)
  have hconfirmed : (f.board (f.engine e).board).1 = .echo →
      ((v.announceArrival a e).askAround a e).Confirmed e j.session := by
    intro hecho
    have hstill := henrolled.toStill.trans hvalike.toStill
    refine (confirmed_announceArrival hvmesh ?_ hlocal hawaits).of_frame hask.toFrame
    rw [hstill.board_engine, hstill.criterion, hecho]
  have hlisted : ∀ {d}, d < f.engines.length → e ≠ d →
      ((v.announceArrival a e).askAround a e).Lists d (f.member a).agent.identity := by
    intro d hd hne
    have hd' : d < v.engines.length := by rw [hvalike.length, henrolled.length]; exact hd
    exact hagent ▸ hask.listed (lists_announceArrival hvmesh hlocal hd' hne)
  have hbegin : f.beginJoin a e = .ok ((v.announceArrival a e).askAround a e, j) := by
    simp only [beginJoin, hg, bind, Except.bind, hv]
    rfl
  have hflows := harrival.trans hask
  refine ⟨_, j, hbegin, hopened.agent, hopened.engine, ?_, ?_⟩
  · generalize (v.announceArrival a e).askAround a e = w at hflows hlisted
    have hwaited : w.Alike (w.beginWait j t).1 := .setBoard _
    exact henrolled.enters h halone hvalike hflows hwaited (hflows.members.trans hopened.members)
      ((hvmesh.flows hflows).of_engines hwaited.toStill rfl rfl) hlisted
  · intro hecho
    have hready := hconfirmed hecho
    unfold Confirmed at hready
    simp [beginWait, Board.wait, hopened.engine, hready]

/-- **A join of a detached agent whose identity is free** is confirmed at once if it is the agent's
own announcement that confirms it. Otherwise it may have to wait too. -/
theorem startJoin_of_enroll (h : f.Mesh u b) (ha : a < f.members.length)
    (he : e < f.engines.length)
    (halone : ∀ d, f.Hosts d (f.member a).agent.identity → d = e) (hg : f.enroll a e = .ok g)
    (hcutoff : cutoff = none ∨ (f.board (f.engine e).board).1 = .echo) :
    (Welcomes u b a e f (f.startJoin t a e cutoff).1 ∧
      ((f.board (f.engine e).board).1 = .echo →
        (f.startJoin t a e cutoff).2 = .over (.joined true 0))) ∨
    ((f.board (f.engine e).board).1 ≠ .echo ∧ Enters u b a e f (f.startJoin t a e cutoff).1) := by
  obtain ⟨w, j, hbegin, hagent, hengine, henters, hconfirmed⟩ :=
    enters_beginJoin (t := t) h ha he halone hg
  obtain ⟨v, confirmed, hwait⟩ : ∃ v confirmed, w.beginWait j t = (v, confirmed) := ⟨_, _, rfl⟩
  rw [hwait] at henters hconfirmed
  have hjoining : (v.member j.agent).standing = .joining j.engine := by
    rw [hagent, hengine]
    exact henters.joining
  unfold startJoin
  simp only [hbegin, hwait]
  cases confirmed with
  | true =>
    have hattached := attaches_finishJoin (t := t) henters.mesh hjoining
    rw [hagent, hengine] at hattached
    exact .inl ⟨henters.welcomes hattached, fun _ => rfl⟩
  | false =>
    have hecho : (f.board (f.engine e).board).1 ≠ .echo := fun hecho => by
      simpa using hconfirmed hecho
    obtain rfl : cutoff = none := hcutoff.resolve_right hecho
    simp only [Bool.false_eq_true, if_false, Option.map_none]
    rcases attaches_resume (t := t) henters.mesh v.now
      (timerTime v.now (v.engine e).settings.joinTimeout.nanos) hjoining with ⟨hsame, -⟩ | hattached
    · rw [hsame]
      exact .inr ⟨hecho, henters⟩
    · rw [hagent, hengine] at hattached
      exact .inl ⟨henters.welcomes hattached, fun h => absurd h hecho⟩

namespace Welcomes

variable (hw : Welcomes u b a e f g)
include hw

theorem hosts : g.Hosts d i ↔ f.Hosts d i ∨ d = e ∧ i = (f.member a).agent.identity := by
  rw [hosts_iff, hosts_iff, hw.local?]
  split
  · next hde => simp [hde]
  · next hde => simp [hde]

theorem settled (hs : f.Settled) : g.Settled := by
  intro d i k hk
  by_cases hka : k = a
  · subst hka
    obtain ⟨s, hjoined⟩ := hw.joined
    have hlocal := (hw.mesh.attached hjoined).1
    rw [(hw.mesh.registered hk).2] at hlocal
    obtain rfl := hw.mesh.unique (hosts_iff.2 ⟨k, hlocal⟩) (hosts_iff.2 ⟨k, hk⟩)
    rw [hjoined]
    rfl
  · rw [hw.local?] at hk
    split at hk
    · exact absurd (Option.some.inj hk).symm hka
    · rw [hw.standing hka]
      exact hs hk

theorem joinsOver (hover : f.JoinsOver) : g.JoinsOver := by
  intro k d hk
  by_cases hka : k = a
  · subst hka
    obtain ⟨s, hjoined⟩ := hw.joined
    rw [hjoined] at hk
    contradiction
  · exact hover k d (hw.standing hka ▸ hk)

/-- A mesh in which everybody lists all others stays so. -/
theorem complete (hc : f.Complete) : g.Complete := by
  intro d c i hd hne hi
  rw [hw.length] at hd
  rcases hw.hosts.1 hi with hi | ⟨rfl, rfl⟩
  · exact hw.known (hc hd hne hi)
  · exact hw.listed hd hne

end Welcomes

end Fabric

end Overlay
