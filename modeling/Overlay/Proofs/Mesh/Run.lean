import Overlay.Proofs.Mesh.Joining
import Overlay.Proofs.Mesh.Leaving
import Overlay.Proofs.Mesh.Liveness

/-!
# Runs of a mesh

What may happen to a mesh is one deed after the other: agents join and leave, in whatever order, as
long as no identity is joined to two engines at once; endpoints are registered, clocks are set,
recorders come and go, and engines make liveness passes. A join may have to wait. Then other deeds
come before its end, which comes when the thread that waits looks again and finds it confirmed or its
time up; no join is dropped.

Every run leaves a mesh a mesh. If joins are confirmed by the agent's own announcement, none of them
waits, and after every run each engine lists exactly who is attached to another one, unless an engine
gives up contacts that it has just heard of (`mesh_converges`).
-/

namespace Overlay

/-- What may happen to a mesh. -/
inductive Deed where
  /-- A thread carries out a command. -/
  | act (thread : ThreadId) (command : Command)
  /-- An engine makes a liveness pass and looks at its contacts in an order. -/
  | pass (engine : EngineId) (order : List (Identity × Slot))
  /-- A thread looks whether its join still has to wait. -/
  | look (thread : ThreadId) (join : Join) (start deadline : Nat)

namespace Fabric

variable {f g : Fabric} {u : Uuid} {b : BusId} {d e : EngineId} {a : AgentId} {i : Identity}
  {t : ThreadId} {deed : Deed} {deeds past later : List Deed}

def after (f : Fabric) : Deed → Fabric
  | .act t c => (f.start t c).1
  | .pass e order => f.pass e order
  | .look t j start deadline => (f.resume t (.join j start deadline none)).1

/-- Whether a deed is one of those that may happen to a mesh. A detached agent may join an engine
if its identity is joined to no other one, or about to be. Nothing cuts a join off that has to wait,
and only for an agent that is about to join a thread looks again. -/
def Allows (f : Fabric) : Deed → Prop
  | .act _ (.join a e cutoff) => a < f.members.length ∧ e < f.engines.length ∧
    (cutoff = none ∨ (f.board (f.engine e).board).1 = .echo) ∧
    ((f.member a).standing = .detached → ∀ k d, (f.member k).standing.engine? = some d →
      (f.member k).agent.identity = (f.member a).agent.identity → d = e)
  | .act _ (.leave _) | .act _ (.registerEndpoint _ _) | .act _ (.setClock _ _) => True
  | .act _ (.listen _ _) | .act _ (.unlisten _ _) => True
  | .act _ _ => False
  | .pass e order => order.Perm (f.engine e).directory.remotes.toList
  | .look _ j _ _ => (f.member j.agent).standing = .joining j.engine

def follow (f : Fabric) (deeds : List Deed) : Fabric :=
  deeds.foldl after f

/-- Whether deeds may happen to a mesh one after the other. -/
def Permits : Fabric → List Deed → Prop
  | _, [] => True
  | f, deed :: rest => f.Allows deed ∧ (f.after deed).Permits rest

/-- A mesh to which nothing has happened: all agents are detached, and no engine knows anybody. -/
structure Founded (u : Uuid) (b : BusId) (f : Fabric) : Prop extends f.Site u b where
  unknown : ∀ e, (f.engine e).directory = .empty
  detached : ∀ a, (f.member a).standing = .detached
  kind : ∀ {a}, a < f.members.length → (f.member a).agent.identity.kind = .agent
  numbered : ∀ e, (f.engine e).fanout.Numbered

theorem Founded.not_local? (h : f.Founded u b) : (f.engine e).directory.local? i ≠ some a := by
  rw [h.unknown]
  simp [Directory.local?, Directory.empty]

theorem Founded.not_lists (h : f.Founded u b) : ¬f.Lists e i := by
  rw [Lists, h.unknown]
  simp [Directory.isRemote, Directory.empty, Register.contains]

theorem Founded.not_hosts (h : f.Founded u b) : ¬f.Hosts e i := by
  intro hi
  obtain ⟨a, ha⟩ := hosts_iff.1 hi
  exact h.not_local? ha

theorem Founded.mesh (h : f.Founded u b) : f.Mesh u b where
  toSite := h.toSite
  sound := fun e => h.unknown e ▸ Directory.sound_empty
  kind := h.kind
  registered := fun ha => absurd ha h.not_local?
  unique := fun hd => absurd hd h.not_hosts
  elsewhere := fun hl => absurd hl h.not_lists
  enrolled := by
    intro a e ha
    rw [h.detached] at ha
    contradiction
  responds := by
    intro a e s ha
    rw [h.detached] at ha
    contradiction
  numbered := h.numbered

theorem Founded.settled (h : f.Founded u b) : f.Settled := fun _ _ _ ha => absurd ha h.not_local?

theorem Founded.joinsOver (h : f.Founded u b) : f.JoinsOver := by
  intro a e ha
  rw [h.detached] at ha
  contradiction

theorem Founded.complete (h : f.Founded u b) : f.Complete :=
  fun _ _ _ _ _ hi => absurd hi h.not_hosts

/-! ## One deed -/

/-- What every deed keeps. -/
structure Onward (u : Uuid) (b : BusId) (f g : Fabric) : Prop extends f.Still g where
  mesh : g.Mesh u b
  settled : g.Settled

/-- A join that is refused changes nothing. -/
theorem startJoin_of_refused {refusal : Refusal} {cutoff : Option Nat}
    (hr : f.enroll a e = .error refusal) :
    f.startJoin t a e cutoff = (f, .over (.failed refusal.failure)) := by
  have hbegin : f.beginJoin a e = .error refusal := by
    rw [beginJoin, hr]
    rfl
  rw [startJoin, hbegin]

/-- An identity that is joined to one engine at most, or about to be, is registered with no other
one. -/
theorem Settled.alone (hs : f.Settled) (h : f.Mesh u b)
    (hjoined : ∀ k d, (f.member k).standing.engine? = some d →
      (f.member k).agent.identity = i → d = e) : ∀ d, f.Hosts d i → d = e := by
  intro d hd
  obtain ⟨k, hk⟩ := hosts_iff.1 hd
  exact hjoined k d (hs hk) (h.registered hk).2

/-- A join that is allowed is refused, or the agent is attached at once, or it has to wait. The last
does not come about if the agent's own announcement confirms the join. -/
theorem startJoin_cases (h : f.Mesh u b) (hs : f.Settled) {cutoff : Option Nat}
    (hd : f.Allows (.act t (.join a e cutoff))) :
    (f.startJoin t a e cutoff).1 = f ∨ Welcomes u b a e f (f.startJoin t a e cutoff).1 ∨
      (f.board (f.engine e).board).1 ≠ .echo ∧ Enters u b a e f (f.startJoin t a e cutoff).1 := by
  obtain ⟨ha, he, hcutoff, hjoined⟩ := hd
  cases hg : f.enroll a e with
  | error refusal =>
    left
    rw [startJoin_of_refused hg]
  | ok g =>
    have hdetached := (enrolled_of_enroll ha he hg).detached
    rcases startJoin_of_enroll (t := t) h ha he (hs.alone h (hjoined hdetached)) hg hcutoff with
      hw | hw
    · exact .inr (.inl hw.1)
    · exact .inr (.inr hw)

/-- A leave that is refused changes nothing. -/
theorem start_leave : (f.start t (.leave a)).1 = f ∨ f.leave a = .ok (f.start t (.leave a)).1 := by
  cases hg : f.leave a with
  | error refusal => simp [start, carryOut, settleWith, hg]
  | ok g => simp [start, carryOut, settleWith, hg]

theorem member_registerEndpoint (x : Endpoint) (k : AgentId) :
    ((f.registerEndpoint a x).member k).agent.identity = (f.member k).agent.identity ∧
      ((f.registerEndpoint a x).member k).standing = (f.member k).standing ∧
      (k ≠ a → ((f.registerEndpoint a x).member k).agent = (f.member k).agent) := by
  by_cases hk : k = a
  · subst hk
    by_cases hlt : k < f.members.length
    · simp [registerEndpoint, setAgent, member, List.getD, hlt, Agent.withEndpoint]
    · have hsame : f.registerEndpoint k x = f := by
        rw [registerEndpoint, setAgent, List.modify_eq_self (Nat.le_of_not_lt hlt)]
      rw [hsame]
      exact ⟨rfl, rfl, fun _ => rfl⟩
  · have hsame : (f.registerEndpoint a x).member k = f.member k := by
      simp [registerEndpoint, setAgent, member, List.getD, Ne.symm hk]
    rw [hsame]
    exact ⟨rfl, rfl, fun _ => rfl⟩

theorem onward_registerEndpoint (h : f.Mesh u b) (hs : f.Settled) (x : Endpoint) :
    Onward u b f (f.registerEndpoint a x) := by
  have hmember := fun k => @member_registerEndpoint f a x k
  constructor
  case toStill => exact still_setMembers _
  case mesh =>
    constructor
    case toSite => exact h.toSite.of_still (still_setMembers _)
    case sound => exact h.sound
    case kind =>
      intro k hk
      rw [(hmember k).1]
      rw [registerEndpoint, setAgent, List.length_modify] at hk
      exact h.kind hk
    case registered =>
      intro e i k hk
      rw [(hmember k).1]
      exact h.registered hk
    case unique => exact h.unique
    case elsewhere => exact h.elsewhere
    case enrolled =>
      intro k e hk
      rw [(hmember k).2.1] at hk
      rw [(hmember k).1]
      exact h.enrolled hk
    case responds =>
      intro k e s hk
      exact h.responds ((hmember k).2.1.symm.trans hk)
    case numbered => exact h.numbered
  case settled =>
    intro e i k hk
    rw [(hmember k).2.1]
    exact hs hk

/-- An engine may get another clock and other recorders. -/
theorem onward_setEngine (h : f.Mesh u b) (hs : f.Settled) {x : Engine}
    (hx : f.Alike (f.setEngine e x)) (hnumbered : x.fanout.Numbered)
    (hkept : ∀ {s k c}, (s, .responder k c) ∈ (f.engine e).fanout.listeners →
      (s, .responder k c) ∈ x.fanout.listeners) : Onward u b f (f.setEngine e x) where
  toStill := hx.toStill
  mesh := by
    apply h.of_alike hx
    · exact h.enrolled
    · intro k d s hk
      have hmem := h.responds hk
      rcases @engine_setEngine_cases f d e x with hd | ⟨rfl, hd⟩
      · rw [hd]
        exact hmem
      · rw [hd]
        exact hkept hmem
    · intro d
      rcases @engine_setEngine_cases f d e x with hd | ⟨rfl, hd⟩
      · rw [hd]
        exact h.numbered d
      · rw [hd]
        exact hnumbered
  settled := fun d _ _ hk => hs (hx.directory d ▸ hk)

theorem alike_setClock (now : Nat) : f.Alike (f.setClock e now) := .setEngine rfl rfl

theorem alike_listen (name : String) : f.Alike (f.listen e name) := .setEngine rfl rfl

theorem alike_unlisten (name : String) : f.Alike (f.unlisten e name) := .setEngine rfl rfl

theorem onward_listen (h : f.Mesh u b) (hs : f.Settled) (name : String) :
    Onward u b f (f.listen e name) := by
  refine onward_setEngine h hs (alike_listen name) ?_ ?_
  · exact ((h.numbered e).subscribe (.recorder name)).of_subset rfl fun l hl =>
      (List.mem_filter.1 hl).1
  · intro s k c hmem
    exact List.mem_filter.2 ⟨Fanout.mem_listeners_subscribe.2 (.inl hmem), by simp⟩

theorem onward_unlisten (h : f.Mesh u b) (hs : f.Settled) (name : String) :
    Onward u b f (f.unlisten e name) := by
  refine onward_setEngine h hs (alike_unlisten name) ?_ ?_
  · exact (h.numbered e).of_subset rfl fun l hl => (List.mem_filter.1 hl).1
  · intro s k c hmem
    exact List.mem_filter.2 ⟨hmem, by simp⟩

/-- **Every deed that is allowed leaves a mesh a mesh.** -/
theorem onward_after (h : f.Mesh u b) (hs : f.Settled) (hd : f.Allows deed) :
    Onward u b f (f.after deed) := by
  cases deed with
  | pass e order =>
    have hpass := @drifts_pass f u b e order h
    exact ⟨hpass.toStill, hpass.mesh, hs.of_frame hpass.toFrame⟩
  | look t j start deadline =>
    change Onward u b f (f.resume t (.join j start deadline none)).1
    rcases attaches_resume (t := t) h start deadline hd with ⟨heq, -⟩ | hattached
    · rw [heq]
      exact ⟨(Aside.refl f).still, h, hs⟩
    · exact ⟨hattached.toStill, hattached.mesh, hattached.settled hs hd⟩
  | act t c =>
    cases c with
    | join a e cutoff =>
      have hcases := startJoin_cases h hs hd
      change Onward u b f (f.startJoin t a e cutoff).1
      rcases hcases with heq | hw | ⟨-, hw⟩
      · rw [heq]
        exact ⟨(Aside.refl f).still, h, hs⟩
      · exact ⟨hw.toStill, hw.mesh, hw.settled hs⟩
      · exact ⟨hw.toStill, hw.mesh, hw.settled hs⟩
    | leave a =>
      change Onward u b f (f.start t (.leave a)).1
      rcases @start_leave f a t with heq | hg
      · rw [heq]
        exact ⟨(Aside.refl f).still, h, hs⟩
      · have hleave := dismisses_leave h hg
        exact ⟨hleave.toStill, hleave.mesh, hleave.settled h hs⟩
    | registerEndpoint a x => exact onward_registerEndpoint h hs x
    | setClock e now => exact onward_setEngine h hs (alike_setClock now) (h.numbered e) id
    | listen e name => exact onward_listen h hs name
    | unlisten e name => exact onward_unlisten h hs name
    | _ => exact hd.elim

/-- No join waits after a deed if none has waited before and the agent's own announcement confirms
every one. -/
theorem joinsOver_after (h : f.Mesh u b) (hs : f.Settled) (hover : f.JoinsOver) (hecho : f.Echoing)
    (hd : f.Allows deed) : (f.after deed).JoinsOver := by
  cases deed with
  | pass e order => exact hover.of_frame (@drifts_pass f u b e order h).toFrame
  | look t j start deadline => exact absurd hd (hover j.agent j.engine)
  | act t c =>
    cases c with
    | join a e cutoff =>
      have hcases := startJoin_cases h hs hd
      change (f.startJoin t a e cutoff).1.JoinsOver
      rcases hcases with heq | hw | ⟨hne, -⟩
      · rwa [heq]
      · exact hw.joinsOver hover
      · exact absurd (hecho e hd.2.1) hne
    | leave a =>
      change (f.start t (.leave a)).1.JoinsOver
      rcases @start_leave f a t with heq | hg
      · rwa [heq]
      · exact (dismisses_leave h hg).joinsOver hover
    | registerEndpoint a x =>
      intro k e hk
      exact hover k e ((@member_registerEndpoint f a x k).2.1.symm.trans hk)
    | setClock e now => exact hover
    | listen e name => exact hover
    | unlisten e name => exact hover
    | _ => exact hd.elim

/-- A pass keeps everybody listed if its engine does not give up at once. -/
def Deed.Patient (f : Fabric) : Deed → Prop
  | .act _ _ | .look _ _ _ _ => True
  | .pass e _ => 0 < (f.engine e).settings.evictionMillis

theorem Still.patient (hs : f.Still g) (hp : Deed.Patient f deed) : Deed.Patient g deed := by
  cases deed with
  | act t c => trivial
  | look t j start deadline => trivial
  | pass e order =>
    change 0 < (g.engine e).settings.evictionMillis
    rw [hs.evictionMillis]
    exact hp

/-- A pass that spares who is attached spares everybody while no join waits. -/
theorem Retains.complete (hg : Retains u b f g) (h : f.Mesh u b) (hs : f.Settled) (hover : f.JoinsOver)
    (hc : f.Complete) : g.Complete := by
  intro d e i hd hne hi
  have hhost := hg.hosts.1 hi
  obtain ⟨k, hk⟩ := hosts_iff.1 hhost
  obtain ⟨s, hstanding⟩ := hs.joined hover hk
  obtain ⟨slot, hslot⟩ := lists_iff.1 (hc (hg.length ▸ hd) hne hhost)
  exact lists_iff.2 ⟨slot, hg.known (attached_iff.2 ⟨k, e, s, hstanding, (h.registered hk).2⟩) hslot⟩

theorem mem_of_perm_remotes {order : List (Identity × Slot)}
    (horder : order.Perm (f.engine e).directory.remotes.toList) {c : Identity × Slot}
    (hc : c ∈ order) : (f.engine e).directory.remote? c.1 = some c.2 :=
  Register.mem_toList.1 (horder.mem_iff.1 hc)

/-- If everybody lists all others while no join waits, so it is after a deed that leaves no join
waiting. -/
theorem complete_after (h : f.Mesh u b) (hs : f.Settled) (hover : f.JoinsOver) (hecho : f.Echoing)
    (hc : f.Complete) (hd : f.Allows deed) (hp : Deed.Patient f deed) :
    (f.after deed).Complete := by
  cases deed with
  | pass e order =>
    exact (passes_over_pass h (fun c hc => mem_of_perm_remotes hd hc) hp).2.complete h hs hover hc
  | look t j start deadline => exact absurd hd (hover j.agent j.engine)
  | act t c =>
    cases c with
    | join a e cutoff =>
      have hcases := startJoin_cases h hs hd
      change (f.startJoin t a e cutoff).1.Complete
      rcases hcases with heq | hw | ⟨hne, -⟩
      · rwa [heq]
      · exact hw.complete hc
      · exact absurd (hecho e hd.2.1) hne
    | leave a =>
      change (f.start t (.leave a)).1.Complete
      rcases @start_leave f a t with heq | hg
      · rwa [heq]
      · exact (dismisses_leave h hg).complete hc
    | registerEndpoint a x => exact hc
    | setClock e now => exact (alike_setClock now).complete hc
    | listen e name => exact (alike_listen name).complete hc
    | unlisten e name => exact (alike_unlisten name).complete hc
    | _ => exact hd.elim

/-- Whoever lists an agent lists it with its endpoints, until it has another one. -/
theorem faithful_after (h : f.Mesh u b) (hs : f.Settled) (ha : f.Faithful a) (hd : f.Allows deed)
    (hx : ∀ t x, deed ≠ .act t (.registerEndpoint a x)) :
    (f.after deed).Faithful a ∧ ((f.after deed).member a).agent = (f.member a).agent := by
  cases deed with
  | pass e order =>
    have hpass := @drifts_pass f u b e order h
    exact ⟨hpass.faithful ha, congrArg Member.agent (hpass.member a)⟩
  | look t j start deadline =>
    change (f.resume t (.join j start deadline none)).1.Faithful a ∧
      ((f.resume t (.join j start deadline none)).1.member a).agent = _
    rcases attaches_resume (t := t) h start deadline hd with ⟨heq, -⟩ | hattached
    · rw [heq]
      exact ⟨ha, rfl⟩
    · exact ⟨hattached.toAlike.faithful ha, hattached.agent a⟩
  | act t c =>
    cases c with
    | join k e cutoff =>
      have hcases := startJoin_cases h hs hd
      change (f.startJoin t k e cutoff).1.Faithful a ∧
        ((f.startJoin t k e cutoff).1.member a).agent = _
      rcases hcases with heq | hw | ⟨-, hw⟩
      · rw [heq]
        exact ⟨ha, rfl⟩
      · exact ⟨hw.faithful ha, hw.agent a⟩
      · exact ⟨hw.faithful ha, hw.agent a⟩
    | leave k =>
      change (f.start t (.leave k)).1.Faithful a ∧ ((f.start t (.leave k)).1.member a).agent = _
      rcases @start_leave f k t with heq | hg
      · rw [heq]
        exact ⟨ha, rfl⟩
      · have hleave := dismisses_leave h hg
        exact ⟨hleave.faithful ha, hleave.agent a⟩
    | registerEndpoint k x =>
      have hne : a ≠ k := by
        rintro rfl
        exact hx t x rfl
      have hagent := (@member_registerEndpoint f k x a).2.2 hne
      refine ⟨?_, hagent⟩
      intro c e s hc hslot
      change ((f.registerEndpoint k x).engine c).directory.remote? _ = _ at hslot
      change ((f.engine c).directory.contact s).endpoints = ((f.registerEndpoint k x).member a).agent.endpoints
      rw [hagent]
      exact ha (hagent ▸ hc) (hagent ▸ hslot)
    | setClock e now => exact ⟨(alike_setClock now).faithful ha, rfl⟩
    | listen e name => exact ⟨(alike_listen name).faithful ha, rfl⟩
    | unlisten e name => exact ⟨(alike_unlisten name).faithful ha, rfl⟩
    | _ => exact hd.elim

/-! ## Runs -/

theorem follow_append : f.follow (past ++ later) = (f.follow past).follow later :=
  List.foldl_append

theorem permits_append :
    f.Permits (past ++ later) ↔ f.Permits past ∧ (f.follow past).Permits later := by
  induction past generalizing f with
  | nil => simp [Permits, follow]
  | cons deed past ih =>
    rw [List.cons_append, Permits, ih, Permits, and_assoc]
    rfl

/-- **Every run leaves a mesh a mesh.** -/
theorem onward_follow (h : f.Mesh u b) (hs : f.Settled) (hds : f.Permits deeds) :
    Onward u b f (f.follow deeds) := by
  induction deeds generalizing f with
  | nil => exact ⟨(Aside.refl f).still, h, hs⟩
  | cons deed deeds ih =>
    have hnow := onward_after h hs hds.1
    have hrest := ih hnow.mesh hnow.settled hds.2
    exact ⟨hnow.toStill.trans hrest.toStill, hrest.mesh, hrest.settled⟩

/-- If everybody lists all others while no join waits, so it is after a run in which no engine gives
up at once and the agent's own announcement confirms every join. -/
theorem complete_follow (h : f.Mesh u b) (hs : f.Settled) (hover : f.JoinsOver) (hecho : f.Echoing)
    (hc : f.Complete) (hds : f.Permits deeds) (hp : ∀ deed ∈ deeds, Deed.Patient f deed) :
    (f.follow deeds).JoinsOver ∧ (f.follow deeds).Complete := by
  induction deeds generalizing f with
  | nil => exact ⟨hover, hc⟩
  | cons deed deeds ih =>
    have hnow := onward_after h hs hds.1
    exact ih hnow.mesh hnow.settled (joinsOver_after h hs hover hecho hds.1)
      (hecho.of_still hnow.toStill)
      (complete_after h hs hover hecho hc hds.1 (hp deed List.mem_cons_self)) hds.2
      fun next hnext => hnow.toStill.patient (hp next (List.mem_cons_of_mem deed hnext))

/-- Whoever lists an agent lists it with its endpoints, after a run in which it gets no others. -/
theorem faithful_follow (h : f.Mesh u b) (hs : f.Settled) (ha : f.Faithful a)
    (hds : f.Permits deeds) (hx : ∀ t x, .act t (.registerEndpoint a x) ∉ deeds) :
    (f.follow deeds).Faithful a ∧ ((f.follow deeds).member a).agent = (f.member a).agent := by
  induction deeds generalizing f with
  | nil => exact ⟨ha, rfl⟩
  | cons deed deeds ih =>
    have hnow := onward_after h hs hds.1
    have hfaithful := faithful_after h hs ha hds.1 fun t x hdeed => hx t x (hdeed ▸ List.mem_cons_self)
    have hrest := ih hnow.mesh hnow.settled hfaithful.1 hds.2
      fun t x hmem => hx t x (List.mem_cons_of_mem deed hmem)
    exact ⟨hrest.1, hrest.2.trans hfaithful.2⟩

/-- Between two deeds an engine lists those who are attached to others, if no join waits. -/
theorem lists_iff_joined (h : f.Mesh u b) (hs : f.Settled) (hover : f.JoinsOver) (hc : f.Complete)
    (hd : d < f.engines.length) : f.Lists d i ↔ ∃ a e s, e ≠ d ∧
      (f.member a).standing = .joined e s ∧ (f.member a).agent.identity = i := by
  constructor
  · intro hl
    obtain ⟨e, hne, he⟩ := h.elsewhere hl
    obtain ⟨a, ha⟩ := hosts_iff.1 he
    obtain ⟨s, hstanding⟩ := hs.joined hover ha
    exact ⟨a, e, s, hne, hstanding, (h.registered ha).2⟩
  · rintro ⟨a, e, s, hne, hstanding, rfl⟩
    exact hc hd hne (hosts_iff.2 ⟨a, (h.attached hstanding).1⟩)

/-! ## Two engines -/

/-- Two engines of a cloud on a bus and an agent, as they are built. -/
def pairOf (settings : Settings) : Fabric :=
  let f := (((empty 0).addBus.addBoard .echo).addSocket "left" 0).addSocket "right" 0
  let f := f.addEngine (.cloud default) settings [0] 0 0
  let f := f.addEngine (.cloud default) settings [1] 0 0
  f.addAgent ⟨.agent default, .empty⟩

/-- Two engines that give an agent up after three times ten seconds. -/
def pair : Fabric := pairOf ⟨.ofMillis 10000, 3, .ofMillis 200, .inline⟩

theorem founded_pairOf {settings : Settings} (hinline : settings.dispatch = .inline) :
    (pairOf settings).Founded default 0 := by
  obtain ⟨timeout, retries, wait, dispatch⟩ := settings
  obtain rfl : dispatch = .inline := hinline
  have hlen : (pairOf ⟨timeout, retries, wait, .inline⟩).engines.length = 2 := rfl
  have hengine : ∀ {P : EngineId → Prop}, P 0 → P 1 → (∀ e, 2 ≤ e → P e) → ∀ e, P e := by
    intro P h0 h1 h2 e
    match e with
    | 0 => exact h0
    | 1 => exact h1
    | e + 2 => exact h2 (e + 2) (Nat.le_add_left 2 e)
  generalize hpair : pairOf ⟨timeout, retries, wait, .inline⟩ = f at hlen
  have hwired : ∀ e, e < f.engines.length → f.Wired default 0 e := by
    subst hpair
    refine hengine ?_ ?_ ?_
    · exact fun _ => ⟨rfl, rfl, rfl, ⟨0, 0, rfl, rfl, rfl, rfl⟩, Nat.zero_lt_one⟩
    · exact fun _ => ⟨rfl, rfl, rfl, ⟨1, 1, rfl, rfl, rfl, rfl⟩, Nat.zero_lt_one⟩
    · exact fun e he hlt => absurd hlt (Nat.not_lt.2 (hlen ▸ he))
  have haudience : (f.bus 0).audience = List.range 2 := by
    subst hpair
    rfl
  constructor
  case toSite =>
    refine ⟨hwired _, fun {e} => ?_⟩
    rw [haudience, hlen]
    exact List.mem_range
  case unknown =>
    refine hengine (by subst hpair; rfl) (by subst hpair; rfl) fun e he => ?_
    rw [engine_of_length_le (hlen ▸ he)]
    rfl
  case detached =>
    subst hpair
    intro a
    cases a with
    | zero => rfl
    | succ a => rfl
  case kind =>
    subst hpair
    intro a ha
    obtain rfl : a = 0 := Nat.lt_one_iff.1 ha
    rfl
  case numbered =>
    have hempty : (Fanout.empty (ℓ := Hearer) .inline).Numbered :=
      ⟨fun hx => absurd hx List.not_mem_nil, fun hx => absurd hx List.not_mem_nil⟩
    refine hengine (by subst hpair; exact hempty) (by subst hpair; exact hempty) fun e he => ?_
    rw [engine_of_length_le (hlen ▸ he)]
    exact hempty

theorem echoing_pairOf (settings : Settings) : (pairOf settings).Echoing := by
  intro e he
  have hlen : (pairOf settings).engines.length = 2 := rfl
  match e with
  | 0 => rfl
  | 1 => rfl
  | e + 2 => omega

theorem founded_pair : pair.Founded default 0 := founded_pairOf rfl

theorem echoing_pair : pair.Echoing := echoing_pairOf _

def arrival : List Deed := [.act 0 (.join 0 0 none)]

theorem permits_arrival {settings : Settings} (hinline : settings.dispatch = .inline) :
    (pairOf settings).Permits arrival :=
  ⟨⟨Nat.zero_lt_one, Nat.zero_lt_two, .inl rfl, fun _ k d hk =>
    absurd hk (by simp [(founded_pairOf hinline).detached, Standing.engine?])⟩, trivial⟩

theorem joined_arrival {settings : Settings} (hinline : settings.dispatch = .inline) :
    Welcomes default 0 0 0 (pairOf settings) ((pairOf settings).follow arrival) := by
  have hf := founded_pairOf hinline
  obtain ⟨g, hg⟩ := enroll_ok (hf.detached 0) hf.not_hosts
  have hwelcomes := @startJoin_of_enroll (pairOf settings) g default 0 0 0 0 none hf.mesh
    Nat.zero_lt_one Nat.zero_lt_two (fun d hd => absurd hd hf.not_hosts) hg (.inl rfl)
  have hfollow : (pairOf settings).follow arrival = ((pairOf settings).startJoin 0 0 0 none).1 := by
    rw [arrival, follow, List.foldl_cons, List.foldl_nil, after, start]
  rw [hfollow]
  rcases hwelcomes with hw | ⟨hne, -⟩
  · exact hw.1
  · exact absurd (echoing_pairOf settings 0 Nat.zero_lt_two) hne

/-! ## What every run comes to -/

/-- **A mesh converges**, if joins are confirmed by the agent's own announcement. After every run each
engine lists exactly the agents that are attached to the other engines, and a join of a detached agent
whose identity is not registered is confirmed at once. Whoever joins and gets no endpoint after that
is listed with the endpoints that it has joined with. -/
theorem mesh_converges (hf : f.Founded u b) (hecho : f.Echoing) (hds : f.Permits deeds)
    (hp : ∀ deed ∈ deeds, Deed.Patient f deed) :
    (∀ {d i}, d < f.engines.length → ((f.follow deeds).Lists d i ↔ ∃ a e s, e ≠ d ∧
      ((f.follow deeds).member a).standing = .joined e s ∧
      ((f.follow deeds).member a).agent.identity = i)) ∧
    (∀ {t a e cutoff}, (f.follow deeds).Allows (.act t (.join a e cutoff)) →
      ((f.follow deeds).member a).standing = .detached →
      ¬(f.follow deeds).Hosts e ((f.follow deeds).member a).agent.identity →
      ((f.follow deeds).start t (.join a e cutoff)).2 = .over (.joined true 0)) ∧
    (∀ {past later a}, deeds = past ++ later → ((f.follow past).member a).standing = .detached →
      (∀ t x, .act t (.registerEndpoint a x) ∉ later) →
      ∀ {d e s slot}, ((f.follow deeds).member a).standing = .joined e s →
        ((f.follow deeds).engine d).directory.remote?
          ((f.follow deeds).member a).agent.identity = some slot →
        (((f.follow deeds).engine d).directory.contact slot).endpoints =
          ((f.follow past).member a).agent.endpoints) := by
  have hrun := onward_follow hf.mesh hf.settled hds
  have hrecho := hecho.of_still hrun.toStill
  obtain ⟨hover, hcomplete⟩ :=
    complete_follow hf.mesh hf.settled hf.joinsOver hecho hf.complete hds hp
  refine ⟨?_, ?_, ?_⟩
  · intro d i hd
    exact lists_iff_joined hrun.mesh hrun.settled hover hcomplete (hrun.length ▸ hd)
  · intro t a e cutoff hallows hdetached hfree
    obtain ⟨g, hg⟩ := enroll_ok hdetached hfree
    obtain ⟨ha, he, hcutoff, hjoined⟩ := hallows
    rcases startJoin_of_enroll (t := t) hrun.mesh ha he
      (hrun.settled.alone hrun.mesh (hjoined hdetached)) hg hcutoff with hw | ⟨hne, -⟩
    · exact hw.2 (hrecho e he)
    · exact absurd (hrecho e he) hne
  · rintro past later a rfl hdetached hx d e s slot hstanding hslot
    have ⟨hpast, hlater⟩ := permits_append.1 hds
    have hthen := onward_follow hf.mesh hf.settled hpast
    -- Nobody is registered for an agent that is detached, so nothing can be wrong about it yet.
    have hbefore : (f.follow past).Faithful a := by
      intro c k r hk
      have hstands := hthen.settled hk
      rw [hdetached] at hstands
      contradiction
    have hafter := faithful_follow hthen.mesh hthen.settled hbefore hlater hx
    rw [← follow_append] at hafter
    rw [hafter.1 (hrun.mesh.attached hstanding).1 hslot, hafter.2]

theorem mesh_converges_pair :
    (pair.follow arrival).Lists 1 (pair.member 0).agent.identity := by
  have hrun := mesh_converges founded_pair echoing_pair (permits_arrival rfl)
    (by simp [arrival, Deed.Patient])
  have hjoined : Welcomes default 0 0 0 pair (pair.follow arrival) := joined_arrival rfl
  obtain ⟨s, hs⟩ := hjoined.joined
  exact (hrun.1 (by decide)).2 ⟨0, 0, s, by decide, hs, by rw [hjoined.agent]⟩

end Fabric

end Overlay
