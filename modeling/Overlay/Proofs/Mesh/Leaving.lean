import Overlay.Fabric.Membership
import Overlay.Proofs.Mesh.Traffic

/-!
# Leaving a mesh

An agent that leaves is detached first, while it is still registered. Its departure reaches all
other engines before the sending ends, and they list it no longer. Nothing else happens on the way:
nobody answers a departure.
-/

namespace Overlay

namespace Fabric

variable {f g h : Fabric} {u : Uuid} {b : BusId} {c d e : EngineId} {a : AgentId} {i : Identity}
  {m : Message}

/-! ## Detachment -/

theorem detach_eq_ok (hg : f.detach a = .ok (g, e)) :
    ∃ s, (f.member a).standing = .joined e s ∧
      g = (f.setStanding a .detached).setFanout e ((f.engine e).fanout.unsubscribe s) := by
  unfold detach at hg
  split at hg
  · contradiction
  · contradiction
  · next c s hs =>
    cases hg
    exact ⟨s, hs, rfl⟩

theorem alike_detach (hg : f.detach a = .ok (g, e)) : f.Alike g := by
  obtain ⟨s, -, rfl⟩ := detach_eq_ok hg
  exact (Alike.setStanding _).trans (.setEngine rfl rfl)

theorem member_detach (hg : f.detach a = .ok (g, e)) :
    (g.member a).standing = .detached ∧ ∀ {k}, k ≠ a → g.member k = f.member k := by
  obtain ⟨s, hs, rfl⟩ := detach_eq_ok hg
  exact ⟨standing_setStanding_self _ (lt_of_standing hs), fun hk => member_setStanding_ne _ hk⟩

/-- A mesh stays one when an agent is detached, with its registration still there. -/
theorem mesh_detach (h : f.Mesh u b) (hg : f.detach a = .ok (g, e)) : g.Mesh u b := by
  have hmember := @member_detach f g e a hg
  have hother : ∀ {k}, (g.member k).standing ≠ .detached → k ≠ a := by
    rintro k hk rfl
    exact hk hmember.1
  apply h.of_alike (alike_detach hg)
  · intro k d hk
    have hka := hother fun hdetached => by rw [hdetached] at hk; contradiction
    rw [hmember.2 hka] at hk
    exact h.enrolled hk
  · intro k d s hk
    have hka := hother fun hdetached => by rw [hdetached] at hk; contradiction
    rw [hmember.2 hka] at hk
    have hmem := h.responds hk
    obtain ⟨r, hr, rfl⟩ := detach_eq_ok hg
    rcases @fanout_setFanout_cases (f.setStanding a .detached) d e
      ((f.engine e).fanout.unsubscribe r) with hd | ⟨rfl, hd⟩
    · rw [hd]
      exact hmem
    · rw [hd]
      -- The subscription that has ended is not this one, which is another agent's.
      refine List.mem_filter.2 ⟨hmem, decide_eq_true fun hsr => ?_⟩
      have hsame := (h.numbered d).same hmem (hsr ▸ (h.attached hr).2)
      cases hsame
      exact hka rfl
  · intro d
    obtain ⟨r, hr, rfl⟩ := detach_eq_ok hg
    rcases @fanout_setFanout_cases (f.setStanding a .detached) d e
      ((f.engine e).fanout.unsubscribe r) with hd | ⟨rfl, hd⟩
    · rw [hd]
      exact h.numbered d
    · rw [hd]
      exact (h.numbered d).of_subset rfl fun x hx => (List.mem_filter.1 hx).1

/-! ## The departure -/

/-- What the departure of an identity does between two moments: engines come to list it no longer,
and nothing else. -/
structure Departs (i : Identity) (f g : Fabric) : Prop extends f.Frame g where
  sound : (∀ e, (f.engine e).directory.Sound) → ∀ e, (g.engine e).directory.Sound
  remote? : ∀ {d j}, j ≠ i → (g.engine d).directory.remote? j = (f.engine d).directory.remote? j
  known : ∀ {d j s}, (g.engine d).directory.remote? j = some s →
    (f.engine d).directory.remote? j = some s
  endpoints : ∀ d s, ((g.engine d).directory.contact s).endpoints =
    ((f.engine d).directory.contact s).endpoints

theorem Departs.trans (hfg : Departs i f g) (hgh : Departs i g h) : Departs i f h where
  toFrame := hfg.toFrame.trans hgh.toFrame
  sound := fun hf => hgh.sound (hfg.sound hf)
  remote? := fun hj => (hgh.remote? hj).trans (hfg.remote? hj)
  known := fun hj => hfg.known (hgh.known hj)
  endpoints := fun d s => (hgh.endpoints d s).trans (hfg.endpoints d s)

theorem Departs.of_engines (he : g.engines = f.engines) (hf : f.Frame g) : Departs i f g := by
  have hengine : ∀ e, g.engine e = f.engine e := fun e => by rw [engine, he, engine]
  constructor
  case toFrame => exact hf
  case sound =>
    intro hsound e
    rw [hengine]
    exact hsound e
  case remote? =>
    intro d j _
    rw [hengine]
  case known =>
    intro d j s hj
    rwa [hengine] at hj
  case endpoints =>
    intro d s
    rw [hengine]

theorem Departs.lists (hf : Departs i f g) {j : Identity} (hl : g.Lists d j) : f.Lists d j := by
  obtain ⟨s, hs⟩ := lists_iff.1 hl
  exact lists_iff.2 ⟨s, hf.known hs⟩

theorem Departs.faithful (hf : Departs i f g) (ha : f.Faithful a) : g.Faithful a := by
  intro c e s hc hs
  rw [hf.member] at hc hs ⊢
  rw [hf.local?] at hc
  rw [hf.endpoints]
  exact ha hc (hf.known hs)

theorem Mesh.departs (h : f.Mesh u b) (hf : Departs i f g) : g.Mesh u b :=
  h.of_frame hf.toFrame (hf.sound h.sound) fun hl => .inl (hf.lists hl)

/-- What a departure does to one engine. -/
theorem Departs.setDirectory (h : f.Mesh u b) {D : Directory}
    (hlocals : D.locals = (f.engine e).directory.locals) (hsound : D.Sound)
    (hremote : ∀ {j}, j ≠ i → D.remote? j = (f.engine e).directory.remote? j)
    (hknown : ∀ {j s}, D.remote? j = some s → (f.engine e).directory.remote? j = some s)
    (hendpoints : ∀ s, (D.contact s).endpoints = ((f.engine e).directory.contact s).endpoints) :
    Departs i f (f.setDirectory e D) := by
  have hdir := fun c => @directory_setDirectory_cases f c e D
  constructor
  case toFrame => exact .setDirectory hlocals
  case sound =>
    intro _ c
    rcases hdir c with hc | ⟨rfl, hc⟩
    · rw [hc]
      exact h.sound c
    · rw [hc]
      exact hsound
  case remote? =>
    intro c j hj
    rcases hdir c with hc | ⟨rfl, hc⟩
    · rw [hc]
    · rw [hc, hremote hj]
  case known =>
    intro c j s hj
    rcases hdir c with hc | ⟨rfl, hc⟩
    · rwa [hc] at hj
    · rw [hc] at hj
      exact hknown hj
  case endpoints =>
    intro c s
    rcases hdir c with hc | ⟨rfl, hc⟩
    · rw [hc]
    · rw [hc, hendpoints]

/-- An engine gives an identity up. -/
theorem departs_removeRemote (h : f.Mesh u b) :
    Departs i f (f.setDirectory e ((f.engine e).directory.removeRemote i)) := by
  apply Departs.setDirectory h
  case hlocals => rfl
  case hsound => exact (h.sound e).removeRemote
  case hremote =>
    intro j hj
    rw [Directory.remote?_removeRemote, if_neg hj]
  case hknown =>
    intro j s hj
    rw [Directory.remote?_removeRemote] at hj
    split at hj
    · contradiction
    · exact hj
  case hendpoints => exact fun _ => rfl

/-- The announcement that an identity departs. -/
structure Farewell (i : Identity) (m : Message) : Prop where
  kind : m.kind = .presence
  sender : m.sender = i
  payload : m.payload = .departure

theorem Farewell.carried (hm : Farewell i m) : Bus.carried m = .ok m :=
  Bus.carried_of_not_app (by simp [hm.payload, Payload.departure])

theorem Farewell.reaction (hm : Farewell i m) (x : Engine) : x.reaction m = .membership .departure := by
  simp [Engine.reaction, hm.kind, hm.payload, Payload.departure, Payload.membershipChange]

theorem closed_departs : Closed (Departs i) fun f m => f.Mesh u b ∧ Farewell i m where
  aside := fun h => .of_engines h.engines h.frame
  trans := .trans
  stable := fun hf hm => ⟨hm.1.departs hf, hm.2⟩
  carried := by
    intro f m n hm hn
    rw [hm.2.carried] at hn
    exact Except.ok.inj hn ▸ hm
  answer := by
    intro f m a c uuid reply e s hm hreply
    unfold Agent.reply? at hreply
    simp [hm.2.kind] at hreply
  note := fun name _ => .of_engines rfl (frame_note name)
  queue := by
    intro f m e hm
    rw [hm.1.setFanout_dispatch]
    exact .of_engines rfl (Aside.refl f).frame

theorem processing_departs :
    Processing (Departs i) fun f m => f.Mesh u b ∧ Farewell i m where
  change := by
    intro f e m change now hm _ hr
    rw [hm.2.reaction] at hr
    cases hr
    obtain rfl := hm.2.sender
    exact departs_removeRemote hm.1
  enquiry := by
    intro f e m hm hr
    rw [hm.2.reaction] at hr
    contradiction
  touch := by
    intro f e m now hm
    apply Departs.setDirectory hm.1
    case hlocals => exact Directory.locals_touch
    case hsound => exact (hm.1.sound e).touch
    case hremote => exact fun _ => Directory.remote?_touch
    case hknown =>
      intro j s hj
      rwa [Directory.remote?_touch] at hj
    case hendpoints => exact fun _ => Directory.endpoints_touch

theorem keeps_departs (depth : Nat) :
    Keeps (Departs i) (fun f m => f.Mesh u b ∧ Farewell i m) (reception (fun f _ _ => f) depth) :=
  closed_departs.reception processing_departs depth

def departure (f : Fabric) (a : AgentId) (e : EngineId) : Message :=
  .absence f.fresh.1 (f.member a).agent.identity (f.engine e).identity

theorem farewell_departure : Farewell (f.member a).agent.identity (f.departure a e) :=
  ⟨rfl, rfl, rfl⟩

theorem announceDeparture_eq :
    f.announceDeparture a e = (f.fresh.2.send e (f.departure a e)).1 := rfl

theorem departs_fresh : Departs i f f.fresh.2 := .of_engines rfl aside_fresh.frame

theorem departs_announceDeparture (h : f.Mesh u b) :
    Departs (f.member a).agent.identity f (f.announceDeparture a e) := by
  have hfresh : Departs (f.member a).agent.identity f f.fresh.2 := departs_fresh
  rw [announceDeparture_eq]
  exact hfresh.trans
    (closed_departs.sendBy (keeps_departs levels) ⟨h.departs hfresh, farewell_departure⟩ e)

/-- The departure reaches all other engines: they list the agent no longer. -/
theorem not_lists_announceDeparture (h : f.Mesh u b)
    (ha : f.Hosts e (f.member a).agent.identity) :
    ¬(f.announceDeparture a e).Lists d (f.member a).agent.identity := by
  have hall := @departs_announceDeparture f u b e a h
  by_cases hde : e = d
  · subst hde
    intro hl
    have hnot := h.not_lists ha
    rw [show _ = true from hall.lists hl] at hnot
    contradiction
  by_cases hd : d < f.engines.length
  · have hm : f.fresh.2.Mesh u b ∧ Farewell (f.member a).agent.identity (f.departure a e) :=
      ⟨h.departs (departs_fresh (i := (f.member a).agent.identity)), farewell_departure⟩
    have hstays : ∀ {f' g' : Fabric}, Departs (f.member a).agent.identity f' g' →
        ¬f'.Lists d (f.member a).agent.identity → ¬g'.Lists d (f.member a).agent.identity :=
      fun hf hl hl' => hl (hf.lists hl')
    obtain ⟨k, hk⟩ := hosts_iff.1 ha
    rw [announceDeparture_eq]
    apply sendBy_reaches (Q := fun g => ¬g.Lists d (f.member a).agent.identity) closed_departs
      (keeps_departs levels) hstays hm.1 (lt_of_local? hk) hd hm hm.2.carried
    intro g hg
    have hmesh := hm.1.departs hg
    have hlen : d < g.engines.length := hg.length ▸ hd
    have hadm := hmesh.admits_cloud (m := f.departure a e) hlen
      (hmesh.not_hosts (hg.hosts.2 ha) hde) (h.wired (lt_of_local? hk)).identity
    apply closed_departs.receiveBy_reaches (Q := fun g => ¬g.Lists d (f.member a).agent.identity)
      processing_departs (keeps_departs 3) hstays (closed_departs.stable hg hm)
      (hmesh.wired hlen).present hadm
    intro g' now hg'
    have hlen' : d < g'.engines.length := hg'.length ▸ hlen
    change ¬(g'.setEngine d _).Lists d _
    rw [Lists, engine_setEngine_self _ hlen']
    intro hl
    have hgone := Directory.isRemote_removeRemote.symm.trans hl
    simp [departure, Message.absence, Message.withPayload, Message.plain] at hgone
  · intro hl
    exact hd (hall.length ▸ hl.lt)

/-! ## The whole leave -/

theorem leave_eq_ok (hg : f.leave a = .ok g) : ∃ v e, f.detach a = .ok (v, e) ∧
    g = (v.announceDeparture a e).unregister a e := by
  unfold leave at hg
  cases hv : f.detach a with
  | error refusal =>
    rw [hv] at hg
    contradiction
  | ok v =>
    rw [hv] at hg
    exact ⟨v.1, v.2, rfl, (Except.ok.inj hg).symm⟩

/-- The registration of an identity that is registered with one engine at most is removed. -/
theorem local?_unregister (h : f.Mesh u b) (ha : f.Hosts e (f.member a).agent.identity) :
    ((f.unregister a e).engine d).directory.local? i =
      if i = (f.member a).agent.identity then none else (f.engine d).directory.local? i := by
  by_cases hde : d = e
  · obtain ⟨k, hk⟩ := hosts_iff.1 ha
    have hself : (f.unregister a e).engine e = _ := engine_setEngine_self _ (lt_of_local? hk)
    subst hde
    rw [hself, Directory.local?_removeLocal]
  · have hother : (f.unregister a e).engine d = f.engine d := engine_setEngine_ne _ hde
    rw [hother]
    split
    · next hi =>
      subst hi
      cases hl : (f.engine d).directory.local? (f.member a).agent.identity with
      | none => rfl
      | some k =>
        have hnot := h.not_hosts ha (Ne.symm hde)
        rw [Directory.isLocal_iff.2 ⟨k, hl⟩] at hnot
        contradiction
    · rfl

theorem contacts_unregister : ((f.unregister a e).engine d).directory.remotes =
    (f.engine d).directory.remotes ∧
      ((f.unregister a e).engine d).directory.slots = (f.engine d).directory.slots := by
  unfold unregister
  rcases @directory_setDirectory_cases f d e
    ((f.engine e).directory.removeLocal (f.member a).agent.identity) with hd | ⟨rfl, hd⟩
  · rw [hd]
    exact ⟨rfl, rfl⟩
  · rw [hd]
    exact ⟨rfl, rfl⟩

theorem remote?_unregister : ((f.unregister a e).engine d).directory.remote? i =
    (f.engine d).directory.remote? i := by
  rw [Directory.remote?, contacts_unregister.1, Directory.remote?]

/-- A mesh stays one when the registration of an agent is removed that is detached and that no
engine lists. -/
theorem mesh_unregister (h : f.Mesh u b) (hdetached : (f.member a).standing = .detached)
    (ha : (f.engine e).directory.local? (f.member a).agent.identity = some a)
    (hgone : ∀ d, ¬f.Lists d (f.member a).agent.identity) : (f.unregister a e).Mesh u b := by
  have hlocal := fun d i => @local?_unregister f u b d e a i h (hosts_iff.2 ⟨a, ha⟩)
  have hhosts : ∀ {d i}, (f.unregister a e).Hosts d i → f.Hosts d i := by
    intro d i hi
    obtain ⟨k, hk⟩ := hosts_iff.1 hi
    rw [hlocal] at hk
    split at hk
    · contradiction
    · exact hosts_iff.2 ⟨k, hk⟩
  constructor
  case toSite => exact h.toSite.of_still (still_setEngine rfl)
  case sound => exact fun d => (h.sound d).of_eq contacts_unregister.1 contacts_unregister.2
  case kind => exact h.kind
  case registered =>
    intro d i k hk
    rw [hlocal] at hk
    split at hk
    · contradiction
    · exact h.registered hk
  case unique => exact fun hi hj => h.unique (hhosts hi) (hhosts hj)
  case elsewhere =>
    intro d i hi
    have hl : f.Lists d i := by
      obtain ⟨s, hs⟩ := lists_iff.1 hi
      exact lists_iff.2 ⟨s, remote?_unregister.symm.trans hs⟩
    obtain ⟨c, hne, hc⟩ := h.elsewhere hl
    obtain ⟨k, hk⟩ := hosts_iff.1 hc
    refine ⟨c, hne, hosts_iff.2 ⟨k, ?_⟩⟩
    rw [hlocal, if_neg, hk]
    rintro rfl
    exact hgone d hl
  case enrolled =>
    intro k d hk
    have hk' : (f.member k).standing.engine? = some d := hk
    have hkl := h.enrolled hk'
    have hne : (f.member k).agent.identity ≠ (f.member a).agent.identity := by
      intro heq
      rw [heq] at hkl
      obtain rfl := h.eq_of_local? hkl ha
      rw [hdetached] at hk'
      contradiction
    exact (hlocal d _).trans ((if_neg hne).trans hkl)
  case responds =>
    intro k d s hk
    rw [unregister, fanout_setDirectory]
    exact h.responds hk
  case numbered =>
    intro d
    rw [unregister, fanout_setDirectory]
    exact h.numbered d

/-- What a completed leave does. -/
structure Dismisses (u : Uuid) (b : BusId) (a : AgentId) (f g : Fabric) : Prop
    extends f.Still g where
  mesh : g.Mesh u b
  agent : ∀ k, (g.member k).agent = (f.member k).agent
  members : g.members.length = f.members.length
  detached : (g.member a).standing = .detached
  standing : ∀ {k}, k ≠ a → (g.member k).standing = (f.member k).standing
  local? : ∀ {d i}, (g.engine d).directory.local? i =
    if i = (f.member a).agent.identity then none else (f.engine d).directory.local? i
  remote? : ∀ {d i}, (g.engine d).directory.remote? i =
    if i = (f.member a).agent.identity then none else (f.engine d).directory.remote? i
  endpoints : ∀ d s, ((g.engine d).directory.contact s).endpoints =
    ((f.engine d).directory.contact s).endpoints

/-- **After a leave no engine knows the agent any more, and all others are known as before.** -/
theorem dismisses_leave (h : f.Mesh u b) (hg : f.leave a = .ok g) : Dismisses u b a f g := by
  obtain ⟨v, e, hv, rfl⟩ := leave_eq_ok hg
  obtain ⟨s, hs, -⟩ := detach_eq_ok hv
  have hvmesh := mesh_detach h hv
  have hvalike := alike_detach hv
  have hvmember := @member_detach f v e a hv
  have hvlocal : (v.engine e).directory.local? (v.member a).agent.identity = some a := by
    rw [hvalike.directory, hvalike.agent]
    exact (h.attached hs).1
  have hdeparts := @departs_announceDeparture v u b e a hvmesh
  have hgone := fun d => @not_lists_announceDeparture v u b d e a hvmesh (hosts_iff.2 ⟨a, hvlocal⟩)
  generalize v.announceDeparture a e = w at hdeparts hgone
  rw [hvalike.agent] at hdeparts hgone hvlocal
  have hwmesh := hvmesh.departs hdeparts
  have hwagent : (w.member a).agent = (f.member a).agent := by rw [hdeparts.member, hvalike.agent]
  have hwdetached : (w.member a).standing = .detached := by rw [hdeparts.member, hvmember.1]
  have hwlocal : (w.engine e).directory.local? (w.member a).agent.identity = some a := by
    rw [hdeparts.local?, hwagent, hvlocal]
  have hmember : ∀ k, (w.unregister a e).member k = v.member k := hdeparts.member
  constructor
  case toStill =>
    exact hvalike.toStill.trans (hdeparts.toStill.trans (still_setEngine rfl))
  case mesh => exact mesh_unregister hwmesh hwdetached hwlocal fun d => hwagent ▸ hgone d
  case agent =>
    intro k
    rw [hmember, hvalike.agent]
  case members => exact (congrArg List.length hdeparts.members).trans hvalike.members
  case detached => rw [hmember, hvmember.1]
  case standing =>
    intro k hk
    rw [hmember, hvmember.2 hk]
  case local? =>
    intro d i
    rw [local?_unregister hwmesh (hosts_iff.2 ⟨a, hwlocal⟩), hwagent, hdeparts.local?,
      hvalike.directory]
  case remote? =>
    intro d i
    rw [remote?_unregister]
    split
    · next hi =>
      subst hi
      exact Directory.remote?_eq_none (Bool.eq_false_iff.2 (hgone d))
    · next hi => rw [hdeparts.remote? hi, hvalike.directory]
  case endpoints =>
    intro d s
    rw [Directory.contact, contacts_unregister.2, ← hvalike.directory]
    exact hdeparts.endpoints d s

namespace Dismisses

variable (hd : Dismisses u b a f g)
include hd

theorem hosts : g.Hosts e i ↔ i ≠ (f.member a).agent.identity ∧ f.Hosts e i := by
  rw [hosts_iff, hosts_iff, hd.local?]
  split
  · next hi => simp [hi]
  · next hi => simp [hi]

theorem lists : g.Lists e i ↔ i ≠ (f.member a).agent.identity ∧ f.Lists e i := by
  rw [lists_iff, lists_iff, hd.remote?]
  split
  · next hi => simp [hi]
  · next hi => simp [hi]

theorem settled (h : f.Mesh u b) (hs : f.Settled) : g.Settled := by
  intro e i k hk
  rw [hd.local?] at hk
  split at hk
  · contradiction
  · next hi =>
    have hka : k ≠ a := by
      rintro rfl
      exact hi (h.registered hk).2.symm
    rw [hd.standing hka]
    exact hs hk

theorem joinsOver (hover : f.JoinsOver) : g.JoinsOver := by
  intro k e hk
  by_cases hka : k = a
  · subst hka
    rw [hd.detached] at hk
    contradiction
  · exact hover k e (hd.standing hka ▸ hk)

theorem complete (hc : f.Complete) : g.Complete := by
  intro d e i hlt hne hi
  have ⟨hia, hi⟩ := hd.hosts.1 hi
  exact hd.lists.2 ⟨hia, hc (hd.length ▸ hlt) hne hi⟩

theorem faithful {k : AgentId} (hk : f.Faithful k) : g.Faithful k := by
  intro d e s he hs
  rw [hd.agent] at he hs ⊢
  rw [hd.local?] at he
  rw [hd.remote?] at hs
  rw [hd.endpoints]
  split at he
  · contradiction
  · next hi =>
    rw [if_neg hi] at hs
    exact hk he hs

end Dismisses

end Fabric

end Overlay
