import Overlay.Proofs.Mesh.Basic
import Overlay.Proofs.Wire.Message

/-!
# Traffic in a mesh

Whatever travels in a mesh is truthful: who announces itself is registered, and announces the
endpoints that it has. So traffic leaves a mesh a mesh. `Flows` is what it does to a fabric: contacts
are entered and heard of, and none is lost. It is kept by every reception, and so by everything that
is sent.
-/

namespace Overlay

namespace Fabric

variable {f g h : Fabric} {u : Uuid} {b : BusId} {d e : EngineId} {a : AgentId} {i : Identity}
  {m : Message} {s : Slot} {depth : Nat}

/-! ## What traffic does -/

/-- What traffic does between two moments: engines come to list agents that are elsewhere, lose
nobody, and hear of nobody for the last time earlier than before. -/
structure Flows (f g : Fabric) : Prop extends f.Frame g where
  sound : (∀ e, (f.engine e).directory.Sound) → ∀ e, (g.engine e).directory.Sound
  known : ∀ {d i s}, (f.engine d).directory.remote? i = some s →
    (g.engine d).directory.remote? i = some s
  lists : ∀ {d i}, g.Lists d i → f.Lists d i ∨ ∃ e, e ≠ d ∧ f.Hosts e i
  lastSeen : ∀ d s, ((f.engine d).directory.contact s).lastSeen ≤
    ((g.engine d).directory.contact s).lastSeen
  faithful : ∀ {a}, f.Faithful a → g.Faithful a

theorem Flows.trans (hfg : f.Flows g) (hgh : g.Flows h) : f.Flows h where
  toFrame := hfg.toFrame.trans hgh.toFrame
  sound := fun hf => hgh.sound (hfg.sound hf)
  known := fun hi => hgh.known (hfg.known hi)
  lists := by
    intro d i hl
    rcases hgh.lists hl with hl | ⟨e, hne, he⟩
    · exact hfg.lists hl
    · exact .inr ⟨e, hne, hfg.hosts.1 he⟩
  lastSeen := fun d s => Nat.le_trans (hfg.lastSeen d s) (hgh.lastSeen d s)
  faithful := fun ha => hgh.faithful (hfg.faithful ha)

/-- No directory differs. -/
theorem Flows.of_directories (hf : f.Frame g)
    (hdir : ∀ e, (g.engine e).directory = (f.engine e).directory) : f.Flows g where
  toFrame := hf
  sound := fun h e => hdir e ▸ h e
  known := fun hi => hdir _ ▸ hi
  lists := by
    intro d i hl
    rw [Lists, hdir] at hl
    exact .inl hl
  lastSeen := by
    intro d s
    exact Nat.le_of_eq (by rw [hdir])
  faithful := by
    intro a ha
    simp only [Faithful, hf.member, hdir]
    exact ha

theorem Flows.of_engines (he : g.engines = f.engines) (hf : f.Frame g) : f.Flows g :=
  .of_directories hf fun e => by rw [engine, he, engine]

theorem Aside.flows (h : f.Aside g) : f.Flows g := .of_engines h.engines h.frame

theorem flows_fresh : f.Flows f.fresh.2 := aside_fresh.flows

theorem Mesh.flows (h : f.Mesh u b) (hf : f.Flows g) : g.Mesh u b :=
  h.of_frame hf.toFrame (hf.sound h.sound) hf.lists

/-- What traffic does to one engine. -/
theorem Flows.setDirectory (h : f.Mesh u b) {D : Directory}
    (hlocals : D.locals = (f.engine e).directory.locals) (hsound : D.Sound)
    (hknown : ∀ {j s}, (f.engine e).directory.remote? j = some s → D.remote? j = some s)
    (hlists : ∀ {j}, D.isRemote j = true → f.Lists e j ∨ ∃ d, d ≠ e ∧ f.Hosts d j)
    (hlastSeen : ∀ s, ((f.engine e).directory.contact s).lastSeen ≤ (D.contact s).lastSeen)
    (hfaithful : ∀ {k c s}, f.Faithful k →
      (f.engine c).directory.local? (f.member k).agent.identity = some k →
      D.remote? (f.member k).agent.identity = some s →
      (D.contact s).endpoints = (f.member k).agent.endpoints) : f.Flows (f.setDirectory e D) := by
  have hframe : f.Frame (f.setDirectory e D) := .setDirectory hlocals
  have hdir := fun c => @directory_setDirectory_cases f c e D
  constructor
  case toFrame => exact hframe
  case sound =>
    intro _ c
    rcases hdir c with hc | ⟨rfl, hc⟩
    · rw [hc]
      exact h.sound c
    · rw [hc]
      exact hsound
  case known =>
    intro c j s hj
    rcases hdir c with hc | ⟨rfl, hc⟩
    · rwa [hc]
    · rw [hc]
      exact hknown hj
  case lists =>
    intro c j hj
    unfold Lists at hj ⊢
    rcases hdir c with hc | ⟨rfl, hc⟩
    · exact .inl (hc ▸ hj)
    · exact hlists (hc ▸ hj)
  case lastSeen =>
    intro c s
    rcases hdir c with hc | ⟨rfl, hc⟩
    · exact Nat.le_of_eq (by rw [hc])
    · rw [hc]
      exact hlastSeen s
  case faithful =>
    intro k hk c d s hd hs
    rw [hframe.member] at hd hs ⊢
    rw [hframe.local?] at hd
    rcases hdir c with hc | ⟨rfl, hc⟩
    · rw [hc] at hs ⊢
      exact hk hd hs
    · rw [hc] at hs ⊢
      exact hfaithful hk hd hs

/-- A sign of life. -/
theorem flows_touch (h : f.Mesh u b) {now : Nat} :
    f.Flows (f.setEngine e ((f.engine e).touched i now)) := by
  apply Flows.setDirectory h
  case hlocals => exact Directory.locals_touch
  case hsound => exact (h.sound e).touch
  case hknown =>
    intro j s hj
    rwa [Directory.remote?_touch]
  case hlists =>
    intro j hj
    rw [Directory.isRemote_touch] at hj
    exact .inl hj
  case hlastSeen => exact Directory.lastSeen_le_touch (h.sound e)
  case hfaithful =>
    intro k c s hk hc hs
    rw [Directory.remote?_touch] at hs
    rw [Directory.endpoints_touch]
    exact hk hc hs

/-- The arrival of an agent that is registered elsewhere, with the endpoints that it has. -/
theorem flows_announce (h : f.Mesh u b) (ha : (f.engine d).directory.local? i = some a) (hne : d ≠ e)
    {now : Nat} : f.Flows (f.setDirectory e
      ((f.engine e).directory.announce i (f.member a).agent.endpoints now)) := by
  apply Flows.setDirectory h
  case hlocals => exact Directory.locals_announce
  case hsound => exact (h.sound e).announce
  case hknown => exact Directory.remote?_announce_of_known
  case hlists =>
    intro j hj
    rw [Directory.isRemote_announce, Bool.or_eq_true, beq_iff_eq] at hj
    rcases hj with rfl | hj
    · exact .inr ⟨d, hne, hosts_iff.2 ⟨a, ha⟩⟩
    · exact .inl hj
  case hlastSeen => exact Directory.lastSeen_le_announce (h.sound e)
  case hfaithful =>
    intro k c s hk hc hs
    by_cases hki : (f.member k).agent.identity = i
    · subst hki
      obtain rfl := h.eq_of_local? ha hc
      exact Directory.endpoints_announce_self (h.sound e) hs
    · -- Any other agent keeps its slot, and nothing is written to that.
      rw [Directory.remote?_announce, if_neg hki] at hs
      have hother : (f.engine e).directory.remote? i ≠ some s :=
        fun hi => hki ((h.sound e).remote?_inj hs hi)
      rw [Directory.contact_announce_ne (h.sound e) ((h.sound e).exists_slot hs) hother]
      exact hk hc hs

/-! ## What travels -/

/-- A message can be read by all who hear it, and if it announces anything, it is the arrival of a
registered agent with the endpoints that the agent has. -/
structure Truthful (f : Fabric) (m : Message) : Prop where
  readable : ∀ body, m.payload ≠ .app body
  presence : m.kind = .presence → ∃ e a, (f.engine e).directory.local? m.sender = some a ∧
    m.payload = .arrival (f.member a).agent.endpoints

theorem Truthful.of_frame (hm : f.Truthful m) (hf : f.Frame g) : g.Truthful m where
  readable := hm.readable
  presence := by
    intro hkind
    obtain ⟨e, a, ha, hpayload⟩ := hm.presence hkind
    refine ⟨e, a, hf.local?.trans ha, ?_⟩
    rw [hf.member, hpayload]

/-- A message with an empty payload that announces nothing. -/
theorem truthful_plain (uuid : Uuid) {kind : MessageKind} (hkind : kind ≠ .presence)
    (sender recipient : Identity) : f.Truthful (.plain uuid kind sender recipient) :=
  ⟨by simp [Message.plain], fun hp => absurd hp hkind⟩

/-- The announcement of an agent that is registered. -/
theorem truthful_presence (uuid : Uuid) (recipient : Identity)
    (ha : (f.engine e).directory.local? (f.member a).agent.identity = some a) :
    f.Truthful (.presence uuid (f.member a).agent.identity recipient (f.member a).agent.endpoints) :=
  ⟨by simp [Message.presence, Message.withPayload, Payload.arrival], fun _ => ⟨e, a, ha, rfl⟩⟩

theorem truthful_reply (h : f.Mesh u b) {c : Identity} {uuid : Uuid} {reply : Message}
    {t : SubscriptionId} (hreply : (f.member a).agent.reply? c uuid m = some reply)
    (ha : (f.member a).standing = .joined e t) : f.Truthful reply := by
  unfold Agent.reply? at hreply
  split at hreply
  · contradiction
  · split at hreply
    · obtain rfl := Option.some.inj hreply
      exact truthful_presence uuid m.sender (h.attached ha).1
    · obtain rfl := Option.some.inj hreply
      exact truthful_plain uuid (by decide) _ _
    · contradiction

/-- What travels in a mesh. -/
def Travels (u : Uuid) (b : BusId) (f : Fabric) (m : Message) : Prop :=
  f.Mesh u b ∧ f.Truthful m

theorem Travels.carried (hm : f.Travels u b m) : Bus.carried m = .ok m :=
  Bus.carried_of_not_app hm.2.readable

/-- Inline nothing is queued. -/
theorem Mesh.setFanout_dispatch (h : f.Mesh u b) :
    f.setFanout e ((f.engine e).fanout.dispatch m).1 = f := by
  rw [Fanout.dispatch, h.inline]
  exact setEngine_engine e

theorem closed_flows : Closed Flows (Travels u b) where
  aside := Aside.flows
  trans := .trans
  stable := fun hf hm => ⟨hm.1.flows hf, hm.2.of_frame hf.toFrame⟩
  carried := by
    intro f m n hm hn
    rw [hm.carried] at hn
    exact Except.ok.inj hn ▸ hm
  answer := fun hm hreply ha => ⟨hm.1, truthful_reply hm.1 hreply ha⟩
  note := fun name _ => .of_engines rfl (frame_note name)
  queue := by
    intro f m e hm
    rw [hm.1.setFanout_dispatch]
    exact (Aside.refl f).flows

/-- A truthful message of membership announces the arrival of an agent elsewhere. -/
theorem Truthful.arrival (hm : f.Truthful m) (hadm : (f.engine e).admits m = true)
    {change : MembershipChange} (hr : (f.engine e).reaction m = .membership change) :
    ∃ d a, d ≠ e ∧ (f.engine d).directory.local? m.sender = some a ∧
      change = .arrival (f.member a).agent.endpoints := by
  have hkind : m.kind = .presence := by
    unfold Engine.reaction at hr
    split at hr
    · assumption
    · split at hr <;> contradiction
    · contradiction
  obtain ⟨d, a, ha, hpayload⟩ := hm.presence hkind
  refine ⟨d, a, ?_, ha, ?_⟩
  · rintro rfl
    simp [Engine.admits, Directory.isLocal_iff.2 ⟨a, ha⟩] at hadm
  · simp only [Engine.reaction, hkind, hpayload, Payload.arrival, Payload.membershipChange] at hr
    exact (Reaction.membership.inj hr).symm

theorem processing_flows : Processing Flows (Travels u b) where
  change := by
    intro f e m change now hm hadm hr
    obtain ⟨d, a, hne, ha, rfl⟩ := hm.2.arrival hadm hr
    exact flows_announce hm.1 ha hne
  enquiry := by
    intro f e m hm _
    exact ⟨hm.1.flows flows_fresh, truthful_plain _ (by decide) _ _⟩
  touch := fun hm => flows_touch hm.1

theorem keeps_flows (depth : Nat) :
    Keeps Flows (Travels u b) (reception (fun f _ _ => f) depth) :=
  closed_flows.reception processing_flows depth

/-- **To send a truthful message leaves a mesh a mesh, in which nobody is lost.** -/
theorem flows_send (hm : f.Travels u b m) : f.Flows (f.send e m).1 :=
  closed_flows.sendBy (keeps_flows levels) hm e

theorem flows_dispatch (hm : f.Travels u b m) : f.Flows (f.dispatch e m) :=
  closed_flows.dispatchBy (keeps_flows levels) hm e

/-! ## What traffic reaches -/

theorem Wired.refusal? (w : f.Wired u b e) : ∃ x p, (f.engine e).gateways = [x] ∧
    (f.gateway x).conduit = .socket b p ∧ ((f.bus b).socket p).refusal? m = none := by
  obtain ⟨x, p, hx, hconduit, hclosed, hfailing⟩ := w.gateway
  exact ⟨x, p, hx, hconduit, by simp [Socket.refusal?, hclosed, hfailing]⟩

/-- What comes about when an engine of a mesh receives what another one sends. -/
theorem sendBy_reaches {R : Fabric → Fabric → Prop} {P : Fabric → Message → Prop}
    {receive : Reception} (C : Closed R P) (hreceive : Keeps R P receive) {Q : Fabric → Prop}
    (hstays : ∀ {f g}, R f g → Q f → Q g) (h : f.Mesh u b) (hd : d < f.engines.length)
    (he : e < f.engines.length) (hm : P f m) (hcarried : Bus.carried m = .ok m)
    (hnow : ∀ g, R f g → Q (receive g e m)) : Q (f.sendBy receive d m).1 := by
  obtain ⟨x, p, hx, hconduit, hopen⟩ := (h.wired hd).refusal?
  exact C.sendBy_reaches hreceive hstays hx hconduit hopen (h.audience.2 he) hm hcarried hnow

end Fabric

end Overlay
