import Overlay.Fabric.Liveness
import Overlay.Proofs.Cascade.Machine
import Overlay.Proofs.Mesh.Leaving

/-!
# Liveness in a mesh

Whoever an engine lists is registered with another one, and as a rule attached to it. Then a ping
gets there, the responder answers it, and the answer is back before the sending of the ping ends. So
after a ping the contact has been heard of at the time that the clock shows, whatever it shows, and is
not lost, unless no time at all makes a contact count as lost (`passes_over_pass`,
`gone_probeContact`).
-/

namespace Overlay

namespace Fabric

variable {f g h : Fabric} {u : Uuid} {b : BusId} {c d e : EngineId} {a : AgentId} {i : Identity}
  {m : Message} {s : Slot} {order : List (Identity × Slot)}

/-! ## Passes -/

/-- A liveness pass that looks at contacts in a given order. -/
def pass (f : Fabric) (e : EngineId) (order : List (Identity × Slot)) : Fabric :=
  order.foldl (probeContact e) f

theorem probe_eq_pass : f.probe e = f.pass e (f.engine e).directory.remotes.toList := rfl

/-- An engine asks a contact that is quiet for a sign of life, and leaves it at that. -/
def askContact (e : EngineId) (f : Fabric) (contact : Identity × Slot) : Fabric :=
  if (f.engine e).isQuiet contact.2 then f.pingFrom e contact.1 else f

/-- Whether an agent of an identity is attached to an engine. -/
def attached (f : Fabric) (i : Identity) : Bool :=
  f.members.any fun m => m.standing.isJoined && m.agent.identity == i

theorem attached_iff : f.attached i = true ↔
    ∃ a e s, (f.member a).standing = .joined e s ∧ (f.member a).agent.identity = i := by
  rw [attached, List.any_eq_true]
  constructor
  · rintro ⟨m, hm, hi⟩
    obtain ⟨a, ha⟩ := List.mem_iff_getElem?.1 hm
    have hmember : f.member a = m := by simp [member, List.getD, ha]
    rw [Bool.and_eq_true, beq_iff_eq] at hi
    cases hs : m.standing with
    | detached => simp [hs, Standing.isJoined] at hi
    | joining e => simp [hs, Standing.isJoined] at hi
    | joined e s => exact ⟨a, e, s, hmember ▸ hs, hmember ▸ hi.2⟩
  · rintro ⟨a, e, s, hs, hi⟩
    have hlt := lt_of_standing hs
    refine ⟨f.member a, ?_, by simp [hs, hi, Standing.isJoined]⟩
    simp [member, List.getD, hlt]

theorem Frame.attached (hf : f.Frame g) : g.attached i = f.attached i := by
  rw [Fabric.attached, hf.members, Fabric.attached]

/-- A pass that only asks those of its contacts who are attached, and leaves it at that. -/
def passOver (f : Fabric) (e : EngineId) (order : List (Identity × Slot)) : Fabric :=
  order.foldl (fun g c => if f.attached c.1 then askContact e g c else probeContact e g c) f

/-! ## Pings and their answers -/

/-- A sender that is known has been heard of when the processing of its message began. -/
theorem clock_le_lastSeen_receiveBy (hm : f.Travels u b m) (he : e < f.engines.length)
    (hs : (f.engine e).directory.remote? m.sender = some s) (depth : Nat) :
    (f.engine e).clock ≤ (((receiveBy (reception (fun f _ _ => f) depth) f e m).engine
      e).directory.contact s).lastSeen := by
  have hinspect : f.Flows (f.inspect e m) := aside_inspect.flows
  have hreact : f.Flows (if (f.engine e).admits m then
      (f.inspect e m).react (reception (fun f _ _ => f) depth) e m (f.engine e).clock
      else f.inspect e m) := by
    split
    · next hadm =>
      rw [← @Closed.engine_inspect f e m] at hadm
      exact hinspect.trans (closed_flows.react processing_flows (keeps_flows depth)
        (closed_flows.stable hinspect hm) hadm _)
    · exact hinspect
  rw [receiveBy, if_pos (hm.1.wired he).present, Closed.processBy_eq]
  generalize (if (f.engine e).admits m then
    (f.inspect e m).react (reception (fun f _ _ => f) depth) e m (f.engine e).clock
    else f.inspect e m) = g at hreact
  simp only
  rw [engine_setEngine_self _ (hreact.length ▸ he), Engine.touched,
    Directory.contact_touch (hreact.sound hm.1.sound e), if_pos (hreact.known hs)]
  exact Nat.le_max_right _ _

/-- Time at which an engine has heard of the contact in a slot only grows. -/
theorem Flows.le_lastSeen {time : Nat} (hf : f.Flows g)
    (ht : time ≤ ((f.engine e).directory.contact s).lastSeen) :
    time ≤ ((g.engine e).directory.contact s).lastSeen :=
  Nat.le_trans ht (hf.lastSeen e s)

/-- The answer of an agent to a ping gets to whoever lists the agent. -/
theorem clock_le_lastSeen_answerBy (h : f.Mesh u b) {t : SubscriptionId}
    (ha : (f.member a).standing = .joined d t) (he : e < f.engines.length)
    (hs : (f.engine e).directory.remote? (f.member a).agent.identity = some s) (depth : Nat)
    (uuid : Uuid) (sender : Identity) :
    (f.engine e).clock ≤ (((f.answerBy (reception (fun f _ _ => f) (depth + 1)) a (.cloud u)
      (.ping uuid sender (f.member a).agent.identity)).engine e).directory.contact s).lastSeen := by
  have hm : f.fresh.2.Travels u b (.pong f.fresh.1 (f.member a).agent.identity sender) :=
    ⟨h.flows flows_fresh, truthful_plain _ (by decide) _ _⟩
  have hreply : (f.member a).agent.reply? (.cloud u) f.fresh.1
      (.ping uuid sender (f.member a).agent.identity) =
      some (.pong f.fresh.1 (f.member a).agent.identity sender) := by
    simp [Agent.reply?, Message.ping, Message.plain]
  have hd : d < f.engines.length := lt_of_local? (h.attached ha).1
  have hanswer : f.answerBy (reception (fun f _ _ => f) (depth + 1)) a (.cloud u)
      (.ping uuid sender (f.member a).agent.identity) =
      (f.fresh.2.sendBy (reception (fun f _ _ => f) (depth + 1)) d
        (.pong f.fresh.1 (f.member a).agent.identity sender)).1 := by
    have hmember : f.fresh.2.member a = f.member a := rfl
    simp only [answerBy, hmember, hreply, ha]
  rw [hanswer]
  apply sendBy_reaches (Q := fun g => (f.engine e).clock ≤
    ((g.engine e).directory.contact s).lastSeen) closed_flows (keeps_flows (depth + 1))
    Flows.le_lastSeen hm.1 hd he hm hm.carried
  intro g hg
  have hseen := clock_le_lastSeen_receiveBy (closed_flows.stable hg hm) (hg.length ▸ he)
    (hg.known hs) depth
  exact hg.clock e ▸ hseen

/-- Inline a message is delivered to all listeners at once. -/
theorem Mesh.dispatchBy (h : f.Mesh u b) {receive : Reception} :
    f.dispatchBy receive e m = f.deliver receive m (f.engine e).fanout.audience := by
  have hset := h.setFanout_dispatch (e := e) (m := m)
  have hdispatch : (f.engine e).fanout.dispatch m =
      ((f.engine e).fanout, (f.engine e).fanout.audience) := by
    rw [Fanout.dispatch, h.inline]
  rw [hdispatch] at hset
  simp only [Fabric.dispatchBy, hdispatch, h.inline, hset]

/-- A ping gets to an agent that is attached, and its answer is back before the sending ends. -/
theorem clock_le_lastSeen_pingFrom (h : f.Mesh u b) (hi : f.attached i = true)
    (hs : (f.engine e).directory.remote? i = some s) :
    (f.engine e).clock ≤ (((f.pingFrom e i).engine e).directory.contact s).lastSeen := by
  have hlists : f.Lists e i := lists_iff.2 ⟨s, hs⟩
  obtain ⟨a, d, t, hstanding, rfl⟩ := attached_iff.1 hi
  have ha := (h.attached hstanding).1
  have hhosts : f.Hosts d (f.member a).agent.identity := hosts_iff.2 ⟨a, ha⟩
  have he := hlists.lt
  have hd := lt_of_local? ha
  have hm : f.fresh.2.Travels u b (.ping f.fresh.1 (.cloud u) (f.member a).agent.identity) :=
    ⟨h.flows flows_fresh, truthful_plain _ (by decide) _ _⟩
  have hping : f.pingFrom e (f.member a).agent.identity =
      (f.fresh.2.sendBy receive e (.ping f.fresh.1 (.cloud u) (f.member a).agent.identity)).1 := by
    rw [← (h.wired he).identity]
    rfl
  rw [hping]
  apply sendBy_reaches (Q := fun g => (f.engine e).clock ≤
    ((g.engine e).directory.contact s).lastSeen) closed_flows (keeps_flows levels)
    Flows.le_lastSeen hm.1 he hd hm hm.carried
  -- The engine of the agent receives the ping ...
  intro g hg
  have hmesh := hm.1.flows hg
  have hadm := hmesh.admits_agent (m := .ping f.fresh.1 (.cloud u) (f.member a).agent.identity)
    hmesh.cloud.1 (hg.hosts.2 hhosts)
  apply closed_flows.receiveBy_reaches (Q := fun g => (f.engine e).clock ≤
    ((g.engine e).directory.contact s).lastSeen) processing_flows (keeps_flows 3)
    Flows.le_lastSeen (closed_flows.stable hg hm) (hmesh.wired (hg.length ▸ hd)).present hadm
  -- ... and hands it to its listeners ...
  intro g' now hg'
  have hall := hg.trans hg'
  have hmesh' := hm.1.flows hall
  change _ ≤ (((g'.dispatchBy _ d _).engine e).directory.contact s).lastSeen
  rw [hmesh'.dispatchBy]
  have hresponder : Hearer.responder a (.cloud u) ∈ (g'.engine d).fanout.audience := by
    rw [hall.fanout]
    exact List.mem_map.2 ⟨_, (h.attached hstanding).2, rfl⟩
  apply closed_flows.deliver_reaches (Q := fun g => (f.engine e).clock ≤
    ((g.engine e).directory.contact s).lastSeen) (keeps_flows 3) Flows.le_lastSeen
    (closed_flows.stable hall hm) hresponder
  -- ... of whom the responder of the agent answers it.
  intro g'' hg''
  have hlast := hall.trans hg''
  have hmember : g''.member a = f.member a := hlast.member a
  have hseen := clock_le_lastSeen_answerBy (a := a) (d := d) (t := t)
    (hm.1.flows hlast) (hmember ▸ hstanding) (hlast.length ▸ he) (hmember ▸ hlast.known hs) 2
    f.fresh.1 (.cloud u)
  rw [hmember] at hseen
  exact hlast.clock e ▸ hseen

theorem flows_pingFrom (h : f.Mesh u b) : f.Flows (f.pingFrom e i) :=
  flows_fresh.trans (flows_send ⟨h.flows flows_fresh, truthful_plain _ (by decide) _ _⟩)

theorem flows_askContact (h : f.Mesh u b) (contact : Identity × Slot) :
    f.Flows (askContact e f contact) := by
  unfold askContact
  split
  · exact flows_pingFrom h
  · exact (Aside.refl f).flows

theorem Still.evictionMillis (hs : f.Still g) :
    (g.engine e).settings.evictionMillis = (f.engine e).settings.evictionMillis :=
  congrArg (fun x : Fixture => x.settings.evictionMillis) (hs.fixture e)

/-! ## Passes of any engine -/

/-- What a pass keeps, also one that gives contacts up. -/
structure Drifts (u : Uuid) (b : BusId) (f g : Fabric) : Prop extends f.Frame g where
  mesh : g.Mesh u b
  faithful : ∀ {a}, f.Faithful a → g.Faithful a

theorem Drifts.trans (hfg : Drifts u b f g) (hgh : Drifts u b g h) : Drifts u b f h where
  toFrame := hfg.toFrame.trans hgh.toFrame
  mesh := hgh.mesh
  faithful := fun ha => hgh.faithful (hfg.faithful ha)

theorem Flows.drifts (hf : f.Flows g) (h : f.Mesh u b) : Drifts u b f g :=
  ⟨hf.toFrame, h.flows hf, hf.faithful⟩

theorem Departs.drifts (hf : Departs i f g) (h : f.Mesh u b) : Drifts u b f g :=
  ⟨hf.toFrame, h.departs hf, hf.faithful⟩

/-- What giving up a contact comes to: nobody else is forgotten. -/
theorem drifts_evictFrom (h : f.Mesh u b) : Drifts u b f (f.evictFrom e i s) ∧
    ∀ {d j r}, j ≠ i → (f.engine d).directory.remote? j = some r →
      ((f.evictFrom e i s).engine d).directory.remote? j = some r := by
  unfold evictFrom Engine.evicted?
  by_cases hlost : ((f.engine e).isLost s && (f.engine e).directory.isRemote i) = true
  · simp only [hlost, if_true]
    have hdeparts := departs_removeRemote (i := i) (e := e) h
    have hremoved := hdeparts.drifts h
    have hfresh := (@flows_fresh (f.setDirectory e ((f.engine e).directory.removeRemote i))).drifts
      hremoved.mesh
    have hflows := flows_dispatch (e := e) (m := .fault
        (f.setDirectory e ((f.engine e).directory.removeRemote i)).fresh.1 (f.engine e).identity i)
      ⟨hfresh.mesh, by simp [Message.fault, Message.withPayload],
        by simp [Message.fault, Message.withPayload, Message.plain]⟩
    exact ⟨hremoved.trans (hfresh.trans (hflows.drifts hfresh.mesh)),
      fun hj hr => hflows.known ((hdeparts.remote? hj).trans hr)⟩
  · simp only [hlost]
    exact ⟨(Aside.refl f).flows.drifts h, fun _ hr => hr⟩

/-- **A pass leaves a mesh a mesh, whomever it gives up.** -/
theorem drifts_pass (h : f.Mesh u b) : Drifts u b f (f.pass e order) := by
  unfold pass
  induction order generalizing f with
  | nil => exact (Aside.refl f).flows.drifts h
  | cons c order ih =>
    have hc : Drifts u b f (probeContact e f c) := by
      unfold probeContact
      split
      · have hping := (flows_pingFrom (e := e) (i := c.1) h).drifts h
        exact hping.trans (drifts_evictFrom hping.mesh).1
      · exact (Aside.refl f).flows.drifts h
    exact hc.trans (ih hc.mesh)

/-! ## Nobody who is attached is given up -/

/-- What a pass does between two moments if it gives up nobody who is attached. -/
structure Retains (u : Uuid) (b : BusId) (f g : Fabric) : Prop extends Drifts u b f g where
  known : ∀ {d i s}, f.attached i = true → (f.engine d).directory.remote? i = some s →
    (g.engine d).directory.remote? i = some s

theorem Retains.trans (hfg : Retains u b f g) (hgh : Retains u b g h) : Retains u b f h where
  toDrifts := hfg.toDrifts.trans hgh.toDrifts
  known := fun hi hs => hgh.known (hfg.attached.trans hi) (hfg.known hi hs)

theorem Flows.retains (hf : f.Flows g) (h : f.Mesh u b) : Retains u b f g :=
  ⟨hf.drifts h, fun _ hs => hf.known hs⟩

/-- A contact with an agent that is attached is asked, and not lost. -/
theorem probeContact_eq (h : f.Mesh u b) {contact : Identity × Slot}
    (hi : f.attached contact.1 = true)
    (hs : (f.engine e).directory.remote? contact.1 = some contact.2)
    (hpos : 0 < (f.engine e).settings.evictionMillis) :
    probeContact e f contact = askContact e f contact := by
  have hflows : f.Flows (f.pingFrom e contact.1) := flows_pingFrom h
  have hseen := clock_le_lastSeen_pingFrom h hi hs
  have hfound : ((f.pingFrom e contact.1).engine e).isLost contact.2 = false := by
    rw [Engine.isLost, Engine.idle, hflows.evictionMillis, hflows.clock, Nat.sub_eq_zero_of_le hseen]
    exact decide_eq_false (Nat.not_le.2 hpos)
  unfold probeContact askContact
  split
  · simp [evictFrom, Engine.evicted?, hfound]
  · rfl

/-- A contact that is looked at, with an agent that is attached or not. -/
theorem retains_probeContact (h : f.Mesh u b) {contact : Identity × Slot}
    (hs : f.attached contact.1 = true →
      (f.engine e).directory.remote? contact.1 = some contact.2)
    (hpos : 0 < (f.engine e).settings.evictionMillis) :
    Retains u b f (probeContact e f contact) := by
  by_cases hi : f.attached contact.1 = true
  case pos =>
    rw [probeContact_eq h hi (hs hi) hpos]
    exact (flows_askContact h contact).retains h
  case neg =>
    unfold probeContact
    split
    · have hping := flows_pingFrom (e := e) (i := contact.1) h
      have hevicted := drifts_evictFrom (e := e) (i := contact.1) (s := contact.2) (h.flows hping)
      refine (hping.retains h).trans ⟨hevicted.1, fun {d j s} hj hr => hevicted.2 ?_ hr⟩
      rintro rfl
      exact hi (hping.attached.symm.trans hj)
    · exact (Aside.refl f).flows.retains h

/-- **A pass of an engine that waits at all passes over who is attached**: it asks those who are
quiet, and that is all. -/
theorem passes_over_pass (h : f.Mesh u b)
    (horder : ∀ c ∈ order, (f.engine e).directory.remote? c.1 = some c.2)
    (hpos : 0 < (f.engine e).settings.evictionMillis) :
    f.pass e order = f.passOver e order ∧ Retains u b f (f.pass e order) := by
  have hall : ∀ g, Retains u b f g → (∀ c ∈ order, f.attached c.1 = true →
      (g.engine e).directory.remote? c.1 = some c.2) →
      order.foldl (probeContact e) g = order.foldl (fun g c =>
        if f.attached c.1 then askContact e g c else probeContact e g c) g ∧
      Retains u b f (order.foldl (probeContact e) g) := by
    clear horder
    intro g hg hknown
    induction order generalizing g with
    | nil => exact ⟨rfl, hg⟩
    | cons c order ih =>
      have hpos' : 0 < (g.engine e).settings.evictionMillis := by
        rw [hg.evictionMillis]
        exact hpos
      have hc : Retains u b g (probeContact e g c) := retains_probeContact hg.mesh
        (fun hi => hknown c List.mem_cons_self (hg.attached.symm.trans hi)) hpos'
      have hsame : probeContact e g c =
          if f.attached c.1 then askContact e g c else probeContact e g c := by
        split
        · next hi =>
          exact probeContact_eq hg.mesh (hg.attached.trans hi) (hknown c List.mem_cons_self hi) hpos'
        · rfl
      have hrest := ih (probeContact e g c) (hg.trans hc) fun k hk hi =>
        hc.known (hg.attached.trans hi) (hknown k (List.mem_cons_of_mem c hk) hi)
      rw [List.foldl_cons, List.foldl_cons, ← hsame]
      exact hrest
  exact hall f ((Aside.refl f).flows.retains h) fun c hc _ => horder c hc

/-! ## What recorders note -/

/-- Recorders have noted messages in between, and all faults among these are as said. -/
def Reports (P : Message → Prop) (f g : Fabric) : Prop :=
  ∃ noted, g.heard = noted ++ f.heard ∧ ∀ name m, (name, m) ∈ noted → m.kind = .fault → P m

variable {P : Message → Prop}

theorem Reports.of_heard (hh : g.heard = f.heard) : Reports P f g :=
  ⟨[], hh, fun _ _ hm => absurd hm List.not_mem_nil⟩

theorem closed_reports :
    Closed (Reports P) fun _ m => (m.kind = .fault → P m) ∧ ∀ body, m.payload ≠ .app body where
  aside := fun h => .of_heard h.heard
  trans := by
    rintro f g h ⟨first, hg, hfirst⟩ ⟨second, hh, hsecond⟩
    refine ⟨second ++ first, by rw [hh, hg, List.append_assoc], fun name m hm => ?_⟩
    rcases List.mem_append.1 hm with hm | hm
    · exact hsecond name m hm
    · exact hfirst name m hm
  stable := fun _ hm => hm
  carried := by
    intro f m n hm hn
    rw [Bus.carried_of_not_app hm.2] at hn
    exact Except.ok.inj hn ▸ hm
  answer := by
    intro f m a c uuid reply e s _ hreply _
    rcases Agent.reply?_eq_some hreply with ⟨-, rfl⟩ | ⟨-, rfl⟩
    · exact ⟨fun hk => absurd hk (by simp [Message.presence, Message.withPayload, Message.plain]),
        by simp [Message.presence, Message.withPayload, Payload.arrival]⟩
    · exact ⟨fun hk => absurd hk (by simp [Message.pong, Message.plain]),
        by simp [Message.pong, Message.plain]⟩
  note := by
    intro f m name hm
    refine ⟨[(name, m)], rfl, fun name' m' hmem => ?_⟩
    cases List.mem_singleton.1 hmem
    exact hm.1
  queue := fun _ _ => .of_heard rfl

theorem processing_reports :
    Processing (Reports P) fun _ m => (m.kind = .fault → P m) ∧ ∀ body, m.payload ≠ .app body where
  change := fun _ _ _ => .of_heard rfl
  enquiry := fun _ _ => ⟨fun hk => absurd hk (by simp [Message.discovery, Message.plain]),
    by simp [Message.discovery, Message.plain]⟩
  touch := fun _ => .of_heard rfl

theorem reports_pingFrom : Reports P f (f.pingFrom e i) := by
  have hping : (MessageKind.ping = .fault → P (.ping f.fresh.1 (f.engine e).identity i)) ∧
      ∀ body, Payload.null ≠ .app body :=
    ⟨fun hk => absurd hk (by decide), by simp⟩
  exact closed_reports.trans (closed_reports.aside aside_fresh)
    (closed_reports.sendBy (closed_reports.reception processing_reports levels) hping e)

theorem reports_askContact (contact : Identity × Slot) : Reports P f (askContact e f contact) := by
  unfold askContact
  split
  · exact reports_pingFrom
  · exact .of_heard rfl

theorem reports_evictFrom (hP : ∀ uuid cloud, P (.fault uuid cloud i)) :
    Reports P f (f.evictFrom e i s) := by
  unfold evictFrom
  split
  · next x _ =>
    have hremoved : Reports P f (f.setEngine e x) := .of_heard rfl
    have hfault : (MessageKind.fault = .fault → P (.fault (f.setEngine e x).fresh.1 x.identity i)) ∧
        ∀ body, Payload.fault i ≠ .app body := ⟨fun _ => hP _ _, by simp⟩
    exact closed_reports.trans hremoved (closed_reports.trans (closed_reports.aside aside_fresh)
      (closed_reports.dispatchBy (closed_reports.reception processing_reports levels) hfault e))
  · exact .of_heard rfl

theorem reports_probeContact (contact : Identity × Slot)
    (hP : ∀ uuid cloud, P (.fault uuid cloud contact.1)) :
    Reports P f (probeContact e f contact) := by
  unfold probeContact
  split
  · exact closed_reports.trans reports_pingFrom (reports_evictFrom hP)
  · exact .of_heard rfl

/-- A pass that passes over who is attached reports nobody of them. -/
theorem reports_passOver : Reports (fun m => ∃ i, m.payload = .fault i ∧ f.attached i = false) f
    (f.passOver e order) := by
  have hall : ∀ g, Reports (fun m => ∃ i, m.payload = .fault i ∧ f.attached i = false) g
      (order.foldl (fun g c => if f.attached c.1 then askContact e g c else probeContact e g c)
        g) := by
    induction order with
    | nil => exact fun g => .of_heard rfl
    | cons c order ih =>
      intro g
      refine closed_reports.trans ?_ (ih _)
      dsimp only
      split
      · exact reports_askContact c
      · next hc => exact reports_probeContact c fun _ _ => ⟨c.1, rfl, by simpa using hc⟩
  exact hall f

end Fabric

end Overlay
