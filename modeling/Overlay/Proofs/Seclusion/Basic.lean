import Overlay.Proofs.Bus
import Overlay.Proofs.Cascade.Bounds

/-!
# Engines that hear nothing of what they send

What an engine sends may be heard by other engines, and these may send messages themselves. An
engine is secluded if all this stays among a group of engines to which it does not belong: then
nothing that it sends, and nothing that is sent because of that, comes back to it.

While it processes a message, what happens in the group leaves a secluded engine alone
(`Runs.harmless`). What the engine itself says in the meantime is read off the errands, which are
done one after the other, each with all that it comes down to.
-/

namespace Overlay

/-! ## What is said in the course of errands -/

/-- What an errand has an engine say. -/
def Errand.saidBy (e : EngineId) : Errand → List Message
  | ⟨.send d m, _⟩ => if d = e then [m] else []
  | _ => []

namespace Fabric

/-- Errands take one fabric to another one, and an engine says some messages meanwhile. -/
inductive Runs (e : EngineId) : Fabric → List Errand → Fabric → List Message → Prop
  | nil (f : Fabric) : Runs e f [] f []
  | cons {f g h : Fabric} {t : Errand} {ts : List Errand} {said more : List Message} :
      Runs e (f.perform t).1 (f.perform t).2 g said → Runs e g ts h more →
        Runs e f (t :: ts) h (t.saidBy e ++ said ++ more)

variable {f g h : Fabric} {d e : EngineId} {a : AgentId} {m : Message} {causes : List Message}
  {t u : Errand} {ts us : List Errand} {said more : List Message} {name : String}

theorem Runs.split (hrun : Runs e f (ts ++ us) h said) : ∃ g first second,
    Runs e f ts g first ∧ Runs e g us h second ∧ said = first ++ second := by
  induction ts generalizing f said with
  | nil => exact ⟨f, [], said, .nil f, hrun, rfl⟩
  | cons t ts ih =>
    cases hrun with
    | @cons _ k _ _ _ now later hnow hlater =>
      obtain ⟨g, first, second, hfirst, hsecond, rfl⟩ := ih hlater
      exact ⟨g, _, second, .cons hnow hfirst, hsecond, by simp⟩

/-- What a cascade comes to in the end, its errands come to, and something was said meanwhile. -/
theorem exists_runs {n : Nat} {past sent : List Sending} (e : EngineId)
    (hrun : (Cascade.mk f ts past).run n = ⟨g, [], sent⟩) : ∃ said, Runs e f ts g said := by
  induction n generalizing f ts past with
  | zero =>
    obtain ⟨rfl, rfl, -⟩ := Cascade.mk.inj hrun
    exact ⟨[], .nil f⟩
  | succ n ih =>
    cases ts with
    | nil =>
      have hlater : ∃ said, Runs e f [] g said := ih hrun
      exact hlater
    | cons t ts =>
      have hlater : ∃ said, Runs e (f.perform t).1 ((f.perform t).2 ++ ts) g said := ih hrun
      obtain ⟨said, hsaid⟩ := hlater
      obtain ⟨k, first, second, hfirst, hsecond, -⟩ := hsaid.split
      exact ⟨_, .cons hfirst hsecond⟩

theorem Does.exists_runs (hdoes : f.Does ts g) (e : EngineId) : ∃ said, Runs e f ts g said := by
  obtain ⟨n, sent, hn⟩ := hdoes
  have hrun := hn [] []
  rw [List.append_nil] at hrun
  exact Fabric.exists_runs e hrun

theorem Runs.unique (hg : Runs e f ts g said) (hh : Runs e f ts h more) : g = h ∧ said = more := by
  induction hg generalizing h more with
  | nil f => cases hh; exact ⟨rfl, rfl⟩
  | cons _ _ ihnow ihlater =>
    cases hh with
    | cons hnow hlater =>
      obtain ⟨rfl, rfl⟩ := ihnow hnow
      obtain ⟨rfl, rfl⟩ := ihlater hlater
      exact ⟨rfl, rfl⟩

/-! ## Ways -/

def hears (f : Fabric) (x : GatewayId) : List EngineId :=
  match (f.gateway x).conduit with
  | .socket b p =>
    if ((f.bus b).socket p).closed || ((f.bus b).socket p).failing then [] else (f.bus b).audience
  | .sink _ _ => []

/-- Two fabrics with the same agents, in which messages go the same ways. -/
structure SameWays (f g : Fabric) : Prop extends f.Steady g where
  members : g.members = f.members
  length : g.engines.length = f.engines.length
  hears : g.hears = f.hears

namespace SameWays

theorem refl (f : Fabric) : f.SameWays f := ⟨.refl f, rfl, rfl, rfl⟩

theorem trans (hfg : f.SameWays g) (hgh : g.SameWays h) : f.SameWays h where
  toSteady := hfg.toSteady.trans hgh.toSteady
  members := hgh.members.trans hfg.members
  length := hgh.length.trans hfg.length
  hears := hgh.hears.trans hfg.hears

theorem symm (h : f.SameWays g) : g.SameWays f where
  audience := fun e => (h.audience e).symm
  gateways := fun e => (h.gateways e).symm
  hearers := h.hearers.symm
  members := h.members.symm
  length := h.length.symm
  hears := h.hears.symm

/-- Only what is neither an engine nor an agent nor a way is different. -/
theorem of_eq (he : g.engines = f.engines) (hm : g.members = f.members)
    (hx : g.gateways = f.gateways) (hb : g.buses = f.buses) : f.SameWays g where
  toSteady := .of_eq he hx hb
  members := hm
  length := by rw [he]
  hears := by
    funext x
    simp only [Fabric.hears, gateway, bus, hx, hb]
    rfl

theorem setEngine {x : Engine} (ha : x.fanout.audience = (f.engine e).fanout.audience)
    (hx : x.gateways = (f.engine e).gateways) : f.SameWays (f.setEngine e x) :=
  ⟨steady_setEngine ha hx, rfl, length_setEngine x, rfl⟩

theorem setBus {b : BusId} {bus : Bus EngineId} (hb : bus.sockets = (f.bus b).sockets) :
    f.SameWays (f.setBus b bus) := by
  have hsockets := (aside_setBus hb).sockets
  refine ⟨steady_setBus hb, rfl, rfl, ?_⟩
  funext x
  simp only [Fabric.hears, show (f.setBus b bus).gateway x = f.gateway x from rfl, Bus.socket,
    Bus.audience, hsockets]
  rfl

theorem sink {x : GatewayId} {answer answer' : Option DeliveryStatus} {sent sent' : List Message}
    (hx : (f.gateway x).conduit = .sink answer sent) :
    f.SameWays (f.setConduit x (.sink answer' sent')) := by
  refine ⟨steady_sink hx, rfl, rfl, ?_⟩
  funext y
  simp only [Fabric.hears, show ∀ b, (f.setConduit x (.sink answer' sent')).bus b = f.bus b from
    fun _ => rfl]
  by_cases hlt : x < f.gateways.length
  · by_cases hy : y = x
    · subst hy
      have hnow : ((f.setConduit y (.sink answer' sent')).gateway y).conduit =
          .sink answer' sent' := by
        simp [setConduit, gateway, List.getD, hlt]
      rw [hnow, hx]
    · have hother : (f.setConduit x (.sink answer' sent')).gateway y = f.gateway y := by
        simp [setConduit, gateway, List.getD, Ne.symm hy]
      rw [hother]
  · have hsame : f.setConduit x (.sink answer' sent') = f := by
      simp [setConduit, List.modify_eq_self (Nat.le_of_not_lt hlt)]
    rw [hsame]

theorem inspect : f.SameWays (f.inspect e m) := by
  unfold Fabric.inspect
  simp only [releaseThreads_eq]
  exact .of_eq rfl rfl rfl rfl

theorem wake (t : Task) : f.SameWays (f.wake t) := by
  unfold Fabric.wake
  split <;> exact .of_eq rfl rfl rfl rfl

end SameWays

theorem audience_dispatch (fanout : Fanout Hearer) (m : Message) :
    (fanout.dispatch m).1.audience = fanout.audience := by
  unfold Fanout.dispatch
  split
  · rfl
  · split <;> rfl

theorem mem_dispatch {fanout : Fanout Hearer} {l : Hearer} (hl : l ∈ (fanout.dispatch m).2) :
    l ∈ fanout.audience := by
  unfold Fanout.dispatch at hl
  split at hl
  · exact hl
  · exact absurd hl List.not_mem_nil

theorem ways_reactErrand (now : Nat) : f.SameWays (f.reactErrand e m now causes).1 := by
  unfold reactErrand
  split
  · exact .refl f
  · next change _ => apply SameWays.setEngine <;> cases change <;> rfl
  · exact .of_eq rfl rfl rfl rfl
  · have hfanout : f.SameWays (f.setFanout e ((f.engine e).fanout.dispatch m).1) :=
      .setEngine (audience_dispatch _ m) rfl
    simp only [dispatchErrand]
    split
    · exact hfanout
    · exact hfanout.trans (.wake _)

/-- No errand changes the ways. -/
theorem ways_perform : f.SameWays (f.perform t).1 := by
  obtain ⟨chore, causes⟩ := t
  cases chore with
  | send e m => exact .refl f
  | hand x m =>
    simp only [perform]
    split
    · exact .setBus Closed.sockets_send
    · next hx => exact .sink hx
  | receive e m => exact .refl f
  | process e m =>
    simp only [perform]
    split
    · exact SameWays.inspect.trans (ways_reactErrand _)
    · exact .inspect
  | call l m =>
    cases l with
    | recorder name => exact .of_eq rfl rfl rfl rfl
    | responder a cloud =>
      simp only [perform, answerErrand]
      split <;> exact .of_eq rfl rfl rfl rfl
  | touch e sender now => exact .setEngine rfl rfl

theorem Runs.ways (hrun : Runs e f ts g said) : f.SameWays g := by
  induction hrun with
  | nil f => exact .refl f
  | cons _ _ ihnow ihlater => exact (ways_perform.trans ihnow).trans ihlater

/-! ## Seclusion -/

/-- What a recorder has noted, the oldest first. -/
def noted (f : Fabric) (name : String) : List Message :=
  ((f.heard.filter (·.1 = name)).map (·.2)).reverse

/-- What an engine sends is heard only in a group to which it does not belong, and what is sent in
answer to that as well. Agents who answer do so through the engine itself or through one of the
group, and the group has recorders of its own. -/
structure Secluded (f : Fabric) (e : EngineId) (group : EngineId → Prop) : Prop where
  outside : ¬group e
  hears : ∀ {d x c}, d = e ∨ group d → x ∈ (f.engine d).gateways → c ∈ f.hears x → group c
  answers : ∀ {d a cloud c s}, d = e ∨ group d →
    .responder a cloud ∈ (f.engine d).fanout.audience →
      (f.member a).standing = .joined c s → c = e ∨ group c
  recorders : ∀ {d name}, group d → .recorder name ∈ (f.engine d).fanout.audience →
    .recorder name ∉ (f.engine e).fanout.audience

/-- Errands that are no concern of a secluded engine, apart from what it sends itself. -/
def Harmless (f : Fabric) (e : EngineId) (group : EngineId → Prop) : Errand → Prop
  | ⟨.send d m, _⟩ => (d = e ∨ group d) ∧ (d = e → m.kind ≠ .discovery)
  | ⟨.hand x _, _⟩ => ∀ c ∈ f.hears x, group c
  | ⟨.receive d _, _⟩ | ⟨.process d _, _⟩ | ⟨.touch d _ _, _⟩ => group d
  | ⟨.call (.recorder name) _, _⟩ => .recorder name ∉ (f.engine e).fanout.audience
  | ⟨.call (.responder a _) _, _⟩ =>
    ∀ c s, (f.member a).standing = .joined c s → c = e ∨ group c

/-- Nothing has happened to an engine, and its recorders have noted nothing. -/
structure Untouched (e : EngineId) (f g : Fabric) : Prop where
  engine : g.engine e = f.engine e
  noted : ∀ name, .recorder name ∈ (f.engine e).fanout.audience → g.noted name = f.noted name

variable {group : EngineId → Prop}

theorem Untouched.refl (e : EngineId) (f : Fabric) : Untouched e f f := ⟨rfl, fun _ _ => rfl⟩

theorem Untouched.trans (hfg : Untouched e f g) (hgh : Untouched e g h) : Untouched e f h where
  engine := hgh.engine.trans hfg.engine
  noted := fun name hname => (hgh.noted name (hfg.engine ▸ hname)).trans (hfg.noted name hname)

theorem Untouched.of_eq (he : g.engines = f.engines) (hh : g.heard = f.heard) : Untouched e f g where
  engine := by rw [Fabric.engine, he, Fabric.engine]
  noted := fun _ _ => by rw [Fabric.noted, hh, Fabric.noted]

theorem Untouched.setEngine (hne : e ≠ d) (x : Engine) : Untouched e f (f.setEngine d x) where
  engine := engine_setEngine_ne x hne
  noted := fun _ _ => rfl

theorem Untouched.of_aside (h : f.Aside g) : Untouched e f g := .of_eq h.engines h.heard

theorem Secluded.of_ways (hs : f.Secluded e group) (hw : f.SameWays g) : g.Secluded e group where
  outside := hs.outside
  hears := fun {d x c} hd hx hc =>
    hs.hears hd (hw.gateways d ▸ hx) (by rw [hw.hears] at hc; exact hc)
  answers := fun {d a cloud c s} hd ha hstands =>
    hs.answers hd (hw.audience d ▸ ha) (by rw [member, hw.members] at hstands; exact hstands)
  recorders := fun {d name} hd hn => by
    rw [hw.audience] at hn ⊢
    exact hs.recorders hd hn

theorem Harmless.of_ways (ht : f.Harmless e group t) (hw : f.SameWays g) : g.Harmless e group t := by
  obtain ⟨chore, causes⟩ := t
  cases chore with
  | send d m => exact ht
  | hand x m => exact fun c hc => ht c (by rw [hw.hears] at hc; exact hc)
  | receive d m => exact ht
  | process d m => exact ht
  | touch d sender now => exact ht
  | call l m =>
    cases l with
    | recorder name =>
      change Hearer.recorder name ∉ (g.engine e).fanout.audience
      rw [hw.audience]
      exact ht
    | responder a cloud =>
      intro c s hstands
      rw [member, hw.members] at hstands
      exact ht c s hstands

/-! ## What harmless errands come down to -/

theorem mem_handOut {bytes : List UInt8} {status : DeliveryStatus} {audience : List EngineId}
    {c : EngineId × Message} (hc : c ∈ (Bus.handOut bytes status audience).deliveries) :
    c.1 ∈ audience := by
  induction audience with
  | nil => exact absurd hc List.not_mem_nil
  | cons l audience ih =>
    unfold Bus.handOut at hc
    split at hc
    · exact absurd hc List.not_mem_nil
    · rcases List.mem_cons.1 hc with rfl | hc
      · exact List.mem_cons_self
      · exact List.mem_cons_of_mem l (ih hc)

theorem mem_hears {b : BusId} {p : SocketId} {x : GatewayId} {c : EngineId × Message}
    (hx : (f.gateway x).conduit = .socket b p) (hc : c ∈ ((f.bus b).send p m).2.deliveries) :
    c.1 ∈ f.hears x := by
  cases hrefusal : ((f.bus b).socket p).refusal? m with
  | some failure =>
    rw [Bus.send_of_refusal hrefusal] at hc
    exact absurd hc List.not_mem_nil
  | none =>
    have hopen : (((f.bus b).socket p).closed || ((f.bus b).socket p).failing) = false := by
      unfold Socket.refusal? at hrefusal
      grind
    rw [Bus.send_of_open hrefusal] at hc
    rw [Bus.carry_eq_handOut] at hc
    simp only [hears, hx, hopen]
    exact mem_handOut hc

/-- Handing on what an engine of the group or the engine itself sends. -/
theorem Secluded.harmless_hands (hs : f.Secluded e group) (hd : d = e ∨ group d) :
    ∀ u ∈ (f.perform ⟨.send d m, causes⟩).2, f.Harmless e group u := by
  intro u hu
  obtain ⟨x, hx, rfl⟩ := List.mem_map.1 hu
  exact fun c hc => hs.hears hd hx hc

theorem kind_reply? {agent : Agent} {cloud : Identity} {uuid : Uuid} {reply : Message}
    (h : agent.reply? cloud uuid m = some reply) : reply.kind ≠ .discovery := by
  rcases Agent.reply?_eq_some h with ⟨-, rfl⟩ | ⟨-, rfl⟩ <;> exact nofun

/-- A responder answers through the engine itself or through one of the group. -/
theorem Secluded.harmless_call (hs : f.Secluded e group) (hd : d = e ∨ group d) {cloud : Identity}
    (ha : .responder a cloud ∈ (f.engine d).fanout.audience) :
    f.Harmless e group ⟨.call (.responder a cloud) m, causes⟩ :=
  fun _ _ hstands => hs.answers hd ha hstands

theorem harmless_answer {cloud : Identity}
    (ht : f.Harmless e group ⟨.call (.responder a cloud) m, causes⟩) :
    ∀ u ∈ (f.answerErrand a cloud m causes).2, f.Harmless e group u := by
  intro u hu
  simp only [answerErrand] at hu
  split at hu
  · next reply c s hreply hstands =>
    obtain rfl := List.mem_singleton.1 hu
    exact ⟨ht c s hstands, fun _ => kind_reply? hreply⟩
  · exact absurd hu List.not_mem_nil

theorem Secluded.harmless_react (hs : f.Secluded e group) (hd : group d) (now : Nat) :
    ∀ u ∈ (f.reactErrand d m now causes).2, f.Harmless e group u := by
  have hne : d ≠ e := fun h => hs.outside (h ▸ hd)
  intro u hu
  unfold reactErrand at hu
  split at hu
  · exact absurd hu List.not_mem_nil
  · exact absurd hu List.not_mem_nil
  · obtain rfl := List.mem_singleton.1 hu
    exact ⟨.inr hd, fun h => absurd h hne⟩
  · obtain ⟨l, hl, rfl⟩ := List.mem_map.1 hu
    have hl : l ∈ (f.engine d).fanout.audience := mem_dispatch hl
    cases l with
    | recorder name => exact hs.recorders hd hl
    | responder a cloud => exact hs.harmless_call (.inr hd) hl

theorem Secluded.spares_react (hs : f.Secluded e group) (hd : group d) (now : Nat) :
    Untouched e f (f.reactErrand d m now causes).1 := by
  have hne : e ≠ d := fun h => hs.outside (h ▸ hd)
  unfold reactErrand
  split
  · exact .refl e f
  · exact .setEngine hne _
  · exact .of_eq rfl rfl
  · simp only [dispatchErrand]
    split
    · exact .setEngine hne _
    · exact (Untouched.setEngine hne _).trans (.of_aside (aside_wake _))

theorem Secluded.spares_perform (hs : f.Secluded e group) (ht : f.Harmless e group t) :
    Untouched e f (f.perform t).1 := by
  obtain ⟨chore, causes⟩ := t
  cases chore with
  | send d m => exact .refl e f
  | hand x m =>
    simp only [perform]
    split <;> exact .of_eq rfl rfl
  | receive d m => exact .refl e f
  | process d m =>
    have hinspect : Untouched e f (f.inspect d m) := .of_aside aside_inspect
    simp only [perform]
    split
    · exact hinspect.trans ((hs.of_ways .inspect).spares_react ht _)
    · exact hinspect
  | call l m =>
    cases l with
    | recorder name =>
      refine ⟨rfl, fun other hother => ?_⟩
      have hne : name ≠ other := fun h => ht (h ▸ hother)
      simp [perform, noted, hne]
    | responder a cloud =>
      simp only [perform, answerErrand]
      split <;> exact .of_eq rfl rfl
  | touch d sender now =>
    have hd : group d := ht
    have hne : e ≠ d := fun h => hs.outside (h ▸ hd)
    exact .setEngine hne _

theorem Secluded.harmless_perform (hs : f.Secluded e group) (ht : f.Harmless e group t) :
    ∀ u ∈ (f.perform t).2, f.Harmless e group u := by
  obtain ⟨chore, causes⟩ := t
  cases chore with
  | send d m => exact hs.harmless_hands ht.1
  | hand x m =>
    intro u hu
    simp only [perform] at hu
    split at hu
    · next hx =>
      obtain ⟨c, hc, rfl⟩ := List.mem_map.1 hu
      exact ht c.1 (mem_hears hx hc)
    · exact absurd hu List.not_mem_nil
  | receive d m =>
    intro u hu
    simp only [perform] at hu
    split at hu
    · obtain rfl := List.mem_singleton.1 hu
      exact ht
    · exact absurd hu List.not_mem_nil
  | process d m =>
    intro u hu
    rcases @perform_process f d m causes with h | h
    · rw [h] at hu
      obtain rfl := List.mem_singleton.1 hu
      exact ht
    · rw [h, List.mem_append, List.mem_singleton] at hu
      rcases hu with hu | rfl
      · exact ((hs.of_ways .inspect).harmless_react ht _ u hu).of_ways SameWays.inspect.symm
      · exact ht
  | call l m =>
    cases l with
    | recorder name => exact fun u hu => absurd hu List.not_mem_nil
    | responder a cloud => exact harmless_answer ht
  | touch d sender now => exact fun u hu => absurd hu List.not_mem_nil

theorem Harmless.kind_saidBy (ht : f.Harmless e group t) (hm : m ∈ t.saidBy e) :
    m.kind ≠ .discovery := by
  obtain ⟨chore, causes⟩ := t
  cases chore with
  | send d n =>
    simp only [Errand.saidBy] at hm
    split at hm
    · next hd =>
      obtain rfl := List.mem_singleton.1 hm
      exact ht.2 hd
    · exact absurd hm List.not_mem_nil
  | _ => exact absurd hm List.not_mem_nil

/-- **Harmless errands leave a secluded engine alone**, and it asks for nobody meanwhile. -/
theorem Runs.harmless (hrun : Runs e f ts g said) (hs : f.Secluded e group)
    (hts : ∀ t ∈ ts, f.Harmless e group t) :
    Untouched e f g ∧ ∀ m ∈ said, m.kind ≠ .discovery := by
  induction hrun with
  | nil f => exact ⟨.refl e f, by simp⟩
  | @cons f g h t ts said more hnow hlater ihnow ihlater =>
    have ht := hts t List.mem_cons_self
    have hdone := (ways_perform (f := f) (t := t)).trans hnow.ways
    obtain ⟨huntouched, hsaid⟩ := ihnow (hs.of_ways ways_perform) fun u hu =>
      (hs.harmless_perform ht u hu).of_ways ways_perform
    obtain ⟨huntouched', hmore⟩ := ihlater (hs.of_ways hdone) fun u hu =>
      (hts u (List.mem_cons_of_mem t hu)).of_ways hdone
    refine ⟨((hs.spares_perform ht).trans huntouched).trans huntouched', fun m hm => ?_⟩
    simp only [List.mem_append, or_assoc] at hm
    rcases hm with hm | hm | hm
    · exact ht.kind_saidBy hm
    · exact hsaid m hm
    · exact hmore m hm

end Fabric

end Overlay
