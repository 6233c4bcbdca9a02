import Overlay.Proofs.Mesh.Run

/-!
# Routing in a mesh

A message that is neither about membership nor about liveness is for the listeners. Nobody answers
it, so all that happens to it in a mesh is that every engine which it is meant for hands it to its
recorders. `Noted` is what that does to a fabric, with the notes that it leaves behind.

Which engines these are follows from where the sender and the recipient are attached: the one engine
of the recipient, if that is not the sender's own, and all but the sender's own if the recipient is
the cloud.
-/

namespace Overlay

/-- A message is for the listeners: of a kind that nobody answers and that changes no membership. -/
def Message.IsForListeners (m : Message) : Prop :=
  m.kind = .app ∨ m.kind = .enquiry ∨ m.kind = .fault ∨ m.kind = .service

theorem Message.IsForListeners.reaction {m : Message} (hm : m.IsForListeners) (e : Engine) :
    e.reaction m = .dispatch := by
  rcases hm with hk | hk | hk | hk <;> simp [Engine.reaction, hk]

theorem Message.IsForListeners.reply? {m : Message} (hm : m.IsForListeners) (a : Agent)
    (cloud : Identity) (uuid : Uuid) : a.reply? cloud uuid m = none := by
  rcases hm with hk | hk | hk | hk <;> simp [Agent.reply?, hk]

/-- What a listener notes of a message. -/
def Hearer.note? (m : Message) : Hearer → Option (String × Message)
  | .recorder name => some (name, m)
  | .responder _ _ => none

/-- What the recorders of an engine note of a message: one note each, in the order of their
subscriptions. -/
def Engine.notes (e : Engine) (m : Message) : List (String × Message) :=
  e.fanout.audience.filterMap (Hearer.note? m)

namespace Fabric

variable {f g h : Fabric} {u : Uuid} {b : BusId} {d e i j : EngineId} {a k : AgentId} {m : Message}
  {ns ns' : List (String × Message)} {receive : Reception} {s : SubscriptionId} {deeds : List Deed}
  {x : Identity}

/-! ## Notes -/

/-- Notes have been taken, the later ones in front. Apart from that contacts have been heard of, and
nothing else has happened to agents, engines and ways. -/
structure Noted (ns : List (String × Message)) (f g : Fabric) : Prop extends f.Frame g where
  remotes : ∀ e, (g.engine e).directory.remotes = (f.engine e).directory.remotes
  endpoints : ∀ e s, ((g.engine e).directory.contact s).endpoints =
    ((f.engine e).directory.contact s).endpoints
  heard : g.heard = ns.reverse ++ f.heard

namespace Noted

theorem trans (hfg : Noted ns f g) (hgh : Noted ns' g h) : Noted (ns ++ ns') f h where
  toFrame := hfg.toFrame.trans hgh.toFrame
  remotes := fun e => (hgh.remotes e).trans (hfg.remotes e)
  endpoints := fun e s => (hgh.endpoints e s).trans (hfg.endpoints e s)
  heard := by simp [hgh.heard, hfg.heard]

/-- Nothing has been noted where only what nobody decides by is different. -/
theorem of_aside (hfg : f.Aside g) : Noted [] f g where
  toFrame := hfg.frame
  remotes := fun e => by rw [engine, hfg.engines, engine]
  endpoints := fun e s => by rw [engine, hfg.engines, engine]
  heard := hfg.heard

/-- A sign of life leaves no note. -/
theorem touch (now : Nat) (x : Identity) :
    Noted [] f (f.setEngine e ((f.engine e).touched x now)) where
  toFrame := .setDirectory Directory.locals_touch
  remotes := by
    intro d
    rcases @directory_setDirectory_cases f d e ((f.engine e).directory.touch x now) with hd | ⟨rfl, hd⟩
    · exact congrArg Directory.remotes hd
    · exact (congrArg Directory.remotes hd).trans Directory.remotes_touch
  endpoints := by
    intro d s
    rcases @directory_setDirectory_cases f d e ((f.engine e).directory.touch x now) with hd | ⟨rfl, hd⟩
    · exact congrArg (fun D => (Directory.contact D s).endpoints) hd
    · exact (congrArg (fun D => (Directory.contact D s).endpoints) hd).trans Directory.endpoints_touch
  heard := rfl

/-- An engine takes a message in as before. -/
theorem admits (hfg : Noted ns f g) : (g.engine e).admits m = (f.engine e).admits m := by
  have hidentity : (g.engine e).identity = (f.engine e).identity :=
    congrArg Fixture.identity (hfg.fixture e)
  simp [Engine.admits, Directory.isLocal, Directory.isRemote, hfg.locals, hfg.remotes, hidentity]

/-- An engine has the same recorders as before. -/
theorem notes (hfg : Noted ns f g) : (g.engine e).notes m = (f.engine e).notes m := by
  simp [Engine.notes, hfg.fanout]

theorem present (hfg : Noted ns f g) : (g.engine e).present = (f.engine e).present :=
  congrArg Fixture.present (hfg.fixture e)

end Noted

/-! ## From the listeners to the bus -/

theorem noted_callHearer (hm : m.IsForListeners) (l : Hearer) :
    Noted (l.note? m).toList f (callHearer receive m f l) := by
  cases l with
  | recorder name =>
    exact ⟨frame_note name, fun _ => rfl, fun _ _ => rfl, rfl⟩
  | responder a cloud =>
    change Noted [] f (f.answerBy receive a cloud m)
    have hsilent : f.answerBy receive a cloud m = f.fresh.2 := by
      simp [answerBy, hm.reply?]
    rw [hsilent]
    exact .of_aside aside_fresh

theorem noted_deliver (receive : Reception) (hm : m.IsForListeners) (audience : List Hearer) :
    Noted (audience.filterMap (Hearer.note? m)) f (f.deliver receive m audience) := by
  unfold deliver
  induction audience generalizing f with
  | nil => exact .of_aside (.refl f)
  | cons l audience ih =>
    have hl : Noted (l.note? m).toList f (callHearer receive m f l) := noted_callHearer hm l
    have hall := hl.trans ih
    cases hn : l.note? m <;> simpa [hn] using hall

/-- What becomes of a message for the listeners that an engine of a mesh hands to its own. -/
theorem noted_dispatch (h : f.Mesh u b) (hm : m.IsForListeners) :
    Noted ((f.engine e).notes m) f (f.dispatch e m) := by
  rw [Fabric.dispatch, h.dispatchBy]
  exact noted_deliver receive hm _

/-- What an engine of a mesh does with a message for the listeners: its recorders note it, if it is
meant for the engine. -/
theorem noted_receiveBy (receive : Reception) (hm : m.IsForListeners)
    (hpresent : (f.engine e).present = true) (hinline : (f.engine e).fanout.mode = .inline) :
    Noted (if (f.engine e).admits m then (f.engine e).notes m else []) f (receiveBy receive f e m) := by
  have hinspect : Noted [] f (f.inspect e m) := .of_aside aside_inspect
  rw [receiveBy, if_pos hpresent, Closed.processBy_eq]
  by_cases hadm : (f.engine e).admits m = true
  · have hdispatch : (f.inspect e m).react receive e m (f.engine e).clock =
        (f.inspect e m).deliver receive m (f.engine e).fanout.audience := by
      have hsame : (f.inspect e m).setFanout e (f.engine e).fanout = f.inspect e m := by
        have hset := @setEngine_engine (f.inspect e m) e
        rw [Closed.engine_inspect] at hset
        rw [setFanout, Closed.engine_inspect]
        exact hset
      simp [react, hm.reaction, dispatchBy, Closed.engine_inspect, Fanout.dispatch, hinline, hsame]
    simp only [hadm, if_true, hdispatch]
    have hdeliver := hinspect.trans (noted_deliver receive hm (f.engine e).fanout.audience)
    simpa [Engine.notes] using hdeliver.trans (.touch (e := e) (f.engine e).clock m.sender)
  · simp only [hadm]
    exact hinspect.trans (.touch (f.engine e).clock m.sender)

/-- What becomes of a message for the listeners that several engines of a mesh receive. -/
theorem noted_receiveAll (receive : Reception) (hm : m.IsForListeners) {es : List EngineId}
    (hes : ∀ e ∈ es, (f.engine e).present = true ∧ (f.engine e).fanout.mode = .inline) :
    Noted ((es.filter fun e => (f.engine e).admits m).flatMap fun e => (f.engine e).notes m) f
      (f.receiveAll (receiveBy receive) (es.map fun e => (e, m))) := by
  unfold receiveAll
  induction es generalizing f with
  | nil => exact .of_aside (.refl f)
  | cons e es ih =>
    have ⟨hpresent, hinline⟩ := hes e List.mem_cons_self
    have he := noted_receiveBy receive hm hpresent hinline
    have hrest := @ih (receiveBy receive f e m) fun d hd => by
      rw [he.present, he.fanout]
      exact hes d (List.mem_cons_of_mem e hd)
    have hall := he.trans hrest
    cases hadm : (f.engine e).admits m <;> simpa [hadm, he.admits, he.notes] using hall

/-- What becomes of a message for the listeners that an engine of a mesh sends. -/
theorem noted_send (h : f.Site u b) (hi : i < f.engines.length) (hm : m.IsForListeners)
    (hcarried : Bus.carried m = .ok m) :
    Noted (((f.bus b).audience.filter fun e => (f.engine e).admits m).flatMap
      fun e => (f.engine e).notes m) f (f.send i m).1 := by
  obtain ⟨x, p, hx, hconduit, hopen⟩ := (h.wired hi).refusal? (m := m)
  have hlogged : Noted [] f (f.setBus b ((f.bus b).send p m).1) :=
    .of_aside (aside_setBus Closed.sockets_send)
  have hall : ∀ e ∈ (f.bus b).audience, ((f.setBus b ((f.bus b).send p m).1).engine e).present = true ∧
      ((f.setBus b ((f.bus b).send p m).1).engine e).fanout.mode = .inline := by
    intro e he
    have w := h.wired (h.audience.1 he)
    exact ⟨w.present, w.inline⟩
  have hreceived := noted_receiveAll (reception (fun f _ _ => f) 3) hm hall
  have hsend : (f.send i m).1 = (f.setBus b ((f.bus b).send p m).1).receiveAll
      (receiveBy (reception (fun f _ _ => f) 3)) ((f.bus b).audience.map fun e => (e, m)) := by
    rw [← Closed.deliveries_send hopen hcarried]
    simp [send, sendBy, transmitAll, transmit, hx, hconduit, receive, reception, levels]
  rw [hsend]
  exact hlogged.trans hreceived

/-! ## Whom a message is meant for -/

/-- A message of an attached agent is meant for other engines only: for all of them if it goes to the
cloud, and else for the one at which its recipient is registered. -/
theorem Mesh.admits_iff (h : f.Mesh u b) (hsender : f.Hosts i m.sender) (he : e < f.engines.length) :
    (f.engine e).admits m = true ↔ e ≠ i ∧ (m.recipient = .cloud u ∨ f.Hosts e m.recipient) := by
  by_cases hei : e = i
  · subst hei
    have hlocal : (f.engine e).directory.isLocal m.sender = true := hsender
    simp [Engine.admits, hlocal]
  · have hforeign := h.not_hosts hsender (Ne.symm hei)
    constructor
    · intro hadm
      simp only [Engine.admits, Bool.and_eq_true, Bool.or_eq_true, beq_iff_eq,
        (h.wired he).identity] at hadm
      exact ⟨hei, hadm.2⟩
    · rintro ⟨-, hr | hr⟩
      · exact h.admits_cloud he hforeign hr
      · exact h.admits_agent hforeign hr

/-- The engines that take in a message of an attached agent, each of them once. -/
theorem Mesh.perm_takers (h : f.Mesh u b) (hsender : f.Hosts i m.sender)
    (hones : (f.bus b).audience.Nodup) (es : List EngineId) (hes : es.Nodup)
    (hmem : ∀ e, e ∈ es ↔ e < f.engines.length ∧ e ≠ i ∧
      (m.recipient = .cloud u ∨ f.Hosts e m.recipient)) :
    ((f.bus b).audience.filter fun e => (f.engine e).admits m).Perm es := by
  refine (List.perm_ext_iff_of_nodup (hones.sublist List.filter_sublist) hes).2 fun e => ?_
  rw [List.mem_filter, hmem, h.audience]
  constructor
  · rintro ⟨he, hadm⟩
    exact ⟨he, (h.admits_iff hsender he).1 hadm⟩
  · rintro ⟨he, hto⟩
    exact ⟨he, (h.admits_iff hsender he).2 hto⟩

theorem Hosts.lt (hi : f.Hosts e x) : e < f.engines.length := by
  obtain ⟨a, ha⟩ := hosts_iff.1 hi
  exact lt_of_local? ha

/-! ## What every run comes to -/

/-- **A message for the listeners gets to those whom it is meant for, and to each of them once.**
After every run, whatever confirms joins, an attached agent sends such a message without being
refused. If it goes to an agent that is attached to another engine or about to be, each recorder of
that engine notes it once, and nobody else does; if it goes to the cloud, each recorder of every
engine but the sender's does; and if it goes to an agent of the sender's engine or to somebody whom
nobody knows, nobody notes it. No engine knows anybody else afterwards, or anybody with other
endpoints. -/
theorem sendFrom_reaches_recipients (hf : f.Founded u b) (hones : (f.bus b).audience.Nodup)
    (hds : f.Permits deeds) (ha : ((f.follow deeds).member a).standing = .joined i s)
    (hsender : m.sender = ((f.follow deeds).member a).agent.identity) (hm : m.IsForListeners)
    (hcarried : Bus.carried m = .ok m) :
    ∃ g receipt, (f.follow deeds).sendFrom a m = .ok (g, receipt) ∧
      (∀ {k j}, ((f.follow deeds).member k).standing.engine? = some j → j ≠ i →
        m.recipient = ((f.follow deeds).member k).agent.identity →
        g.heard = (((f.follow deeds).engine j).notes m).reverse ++ (f.follow deeds).heard) ∧
      (m.recipient = .cloud u → ∃ order : List EngineId,
        order.Perm ((List.range f.engines.length).filter (· ≠ i)) ∧
        g.heard = (order.flatMap fun e => ((f.follow deeds).engine e).notes m).reverse ++
          (f.follow deeds).heard) ∧
      (m.recipient ≠ .cloud u →
        (∀ k j, ((f.follow deeds).member k).standing.engine? = some j →
          m.recipient = ((f.follow deeds).member k).agent.identity → j = i) →
        g.heard = (f.follow deeds).heard) ∧
      ∀ e, (g.engine e).directory.locals = ((f.follow deeds).engine e).directory.locals ∧
        (g.engine e).directory.remotes = ((f.follow deeds).engine e).directory.remotes ∧
        ∀ s, ((g.engine e).directory.contact s).endpoints =
          (((f.follow deeds).engine e).directory.contact s).endpoints := by
  have hrun := onward_follow hf.mesh hf.settled hds
  have hones' : ((f.follow deeds).bus b).audience.Nodup := by
    rwa [Bus.audience, hrun.sockets, ← Bus.audience]
  have hlength := hrun.length
  generalize f.follow deeds = w at *
  have h := hrun.mesh
  have hhost : w.Hosts i m.sender := hosts_iff.2 ⟨a, hsender ▸ (h.attached ha).1⟩
  have hnoted := noted_send h.toSite hhost.lt hm hcarried
  have htakers := fun es => h.perm_takers hhost hones' es
  refine ⟨(w.send i m).1, (w.send i m).2, by simp [sendFrom, ha], ?_, ?_, ?_, fun e =>
    ⟨hnoted.locals e, hnoted.remotes e, hnoted.endpoints e⟩⟩
  · -- The recipient is registered with its own engine and with no other one.
    intro k j hk hji hto
    have hj : w.Hosts j m.recipient := hosts_iff.2 ⟨k, hto ▸ h.enrolled hk⟩
    have hone := htakers [j] (by simp) fun e => by
      constructor
      · intro he
        obtain rfl : e = j := by simpa using he
        exact ⟨hj.lt, hji, .inr hj⟩
      · rintro ⟨-, -, hr | hr⟩
        · rw [hr] at hj
          exact absurd hj (by simp [Hosts, h.cloud.1])
        · simp [h.unique hr hj]
    rw [hnoted.heard, List.perm_singleton.1 hone]
    simp
  · intro hto
    refine ⟨_, htakers _ (List.nodup_range.sublist List.filter_sublist) fun e => ?_, hnoted.heard⟩
    simp [hto, hlength]
  · intro hcloud hown
    have hnobody := htakers [] .nil fun e => by
      constructor
      · intro he
        exact absurd he List.not_mem_nil
      · rintro ⟨-, hei, hr | hr⟩
        · exact absurd hr hcloud
        · obtain ⟨k, hk⟩ := hosts_iff.1 hr
          exact absurd (hown k e (hrun.settled hk) (h.registered hk).2.symm) hei
    rw [hnoted.heard, List.perm_nil.1 hnobody]
    simp

theorem member_listen (name : String) (a : AgentId) : (f.listen e name).member a = f.member a := rfl

theorem mem_audience_listen (name : String) (he : e < f.engines.length) :
    .recorder name ∈ ((f.listen e name).engine e).fanout.audience := by
  have hfanout : ((f.listen e name).engine e).fanout = _ :=
    congrArg Engine.fanout (engine_setEngine_self _ he)
  rw [hfanout]
  exact List.mem_map.2 ⟨((f.engine e).fanout.next, .recorder name),
    List.mem_filter.2 ⟨Fanout.mem_listeners_subscribe.2 (.inr rfl), by simp⟩, rfl⟩

/-- Whoever has begun to listen takes notes. -/
theorem mem_notes_listen (name : String) (he : e < f.engines.length) :
    (name, m) ∈ ((f.listen e name).engine e).notes m :=
  List.mem_filterMap.2 ⟨_, mem_audience_listen name he, rfl⟩

/-- The agent joins the first of the two engines, and a recorder listens at the second one. -/
def watched : List Deed := arrival ++ [.act 0 (.listen 1 "log")]

/-- The agent asks the cloud about itself. -/
def question : Message :=
  .enquiry default (pair.member 0).agent.identity (.cloud default) (pair.member 0).agent.identity

theorem follow_watched : f.follow watched = (f.follow arrival).listen 1 "log" := follow_append

theorem permits_watched {settings : Settings} (hinline : settings.dispatch = .inline) :
    (pairOf settings).Permits watched :=
  permits_append.2 ⟨permits_arrival hinline, trivial, trivial⟩

theorem sendFrom_reaches_recipients_pair : ∃ g receipt,
    (pair.follow watched).sendFrom 0 question = .ok (g, receipt) ∧ ("log", question) ∈ g.heard := by
  have hpermits : pair.Permits watched := permits_watched rfl
  have hjoined : Welcomes default 0 0 0 pair (pair.follow arrival) := joined_arrival rfl
  have hones : (pair.bus 0).audience.Nodup := by
    change (List.range 2).Nodup
    exact List.nodup_range
  obtain ⟨s, hs⟩ := hjoined.joined
  have hmember : (pair.follow watched).member 0 = (pair.follow arrival).member 0 := by
    rw [follow_watched, member_listen]
  obtain ⟨g, receipt, hsend, -, hcloud, -, -⟩ := sendFrom_reaches_recipients (i := 0) (s := s)
    (m := question) founded_pair hones hpermits (by rw [hmember, hs])
    (by rw [hmember, hjoined.agent]; rfl) (.inr (.inl rfl))
    (Bus.carried_of_not_app (by simp [question, Message.enquiry, Message.withPayload]))
  obtain ⟨order, horder, hheard⟩ := hcloud rfl
  have hone : 1 ∈ order := horder.mem_iff.2 (by decide)
  have hlt : 1 < (pair.follow arrival).engines.length := by
    rw [hjoined.length]
    decide
  refine ⟨g, receipt, hsend, ?_⟩
  rw [hheard, List.mem_append, List.mem_reverse, List.mem_flatMap, follow_watched]
  exact .inl ⟨1, hone, mem_notes_listen "log" hlt⟩

end Fabric

end Overlay
