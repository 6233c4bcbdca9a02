import Mathlib.Algebra.BigOperators.Ring.List
import Mathlib.Algebra.Order.BigOperators.Group.List
import Mathlib.Algebra.Order.Ring.Nat
import Overlay.Proofs.Cascade.Machine
import Overlay.Proofs.Tasks

/-!
# Cascades end

Whatever a message brings about by itself is of a lower kind, so the causes of a message that is sent
form a rising chain of kinds, and there are three of them at most (`Errand.Chained`). The number of
messages is bounded too: an engine that sends reaches no more engines than listen to its gateways,
and each of these calls no more listeners than it has. Neither changes while errands are done
(`Fabric.Steady`), so every errand can be given a weight from the start that is never less than what
it sends and the weights of what it comes down to (`Errand.weight`).
-/

namespace Overlay

/-! ## Chains of causes -/

namespace Message

variable {m : Message} {causes : List Message}

/-- Along a chain of causes the ranks rise. -/
theorem rank_add_length_le (h : (m :: causes).Pairwise Below) : m.kind.rank + causes.length ≤ 4 := by
  induction causes generalizing m with
  | nil => exact m.rank_le
  | cons cause causes ih =>
    obtain ⟨hbelow, hrest⟩ := List.pairwise_cons.1 h
    have hlength := ih hrest
    have hbelow := hbelow cause List.mem_cons_self
    simp only [Below] at hbelow
    simp only [List.length_cons]
    omega

/-- What is below the first message of a chain may stand before it. -/
theorem pairwise_follow {r : Message} (h : (m :: causes).Pairwise Below) (hr : r.Below m) :
    (r :: m :: causes).Pairwise Below := by
  refine List.pairwise_cons.2 ⟨fun cause hcause => ?_, h⟩
  rcases List.mem_cons.1 hcause with rfl | hcause
  · exact hr
  · exact ⟨hr.1, Nat.lt_trans hr.2 (List.rel_of_pairwise_cons h hcause).2⟩

theorem length_causes_le (h : (m :: causes).Pairwise Below) : causes.length ≤ 3 := by
  cases causes with
  | nil => simp
  | cons cause causes =>
    have hbelow := (List.rel_of_pairwise_cons h List.mem_cons_self).1
    have hlength := rank_add_length_le h
    omega

end Message

namespace Errand

/-- The message of the errand and its causes form a chain. What is sent while something else is
handled comes out of the wire format as it went in. -/
def Chained : Errand → Prop
  | ⟨.send _ m, causes⟩ | ⟨.hand _ m, causes⟩ =>
    (m :: causes).Pairwise Message.Below ∧ (causes ≠ [] → Bus.carried m = .ok m)
  | ⟨.receive _ m, causes⟩ | ⟨.process _ m, causes⟩ | ⟨.call _ m, causes⟩ =>
    (m :: causes).Pairwise Message.Below
  | ⟨.touch _ _ _, _⟩ => True

/-- What is sent by itself while a message is handled has one cause more than the message. -/
theorem chained_follow {m r : Message} {causes : List Message} (h : (m :: causes).Pairwise Message.Below)
    (hr : r.Follows m) (e : EngineId) : Chained ⟨.send e r, m :: causes⟩ :=
  ⟨Message.pairwise_follow h hr.below, fun _ => hr.carried⟩

end Errand

namespace Fabric

variable {f g h : Fabric} {e : EngineId} {m : Message} {causes : List Message} {t u : Errand}

/-- Calling a listener either sends nothing or one answer. -/
theorem answerErrand_cases (a : AgentId) (cloud : Identity) :
    (f.answerErrand a cloud m causes).2 = [] ∨
      ∃ e r, r.Follows m ∧ (f.answerErrand a cloud m causes).2 = [⟨.send e r, m :: causes⟩] := by
  simp only [answerErrand]
  cases hreply : (f.fresh.2.member a).agent.reply? cloud f.fresh.1 m with
  | none => exact .inl rfl
  | some reply =>
    cases (f.fresh.2.member a).standing with
    | detached => exact .inl rfl
    | joining e => exact .inl rfl
    | joined e s => exact .inr ⟨e, reply, Message.follows_reply hreply, rfl⟩

/-- To react to a message is to do nothing more, to send one, or to call listeners. -/
theorem reactErrand_cases (now : Nat) :
    (f.reactErrand e m now causes).2 = [] ∨
      (∃ r, r.Follows m ∧ (f.reactErrand e m now causes).2 = [⟨.send e r, m :: causes⟩]) ∨
      (f.reactErrand e m now causes).2 =
        ((f.engine e).fanout.dispatch m).2.map fun l => ⟨.call l m, causes⟩ := by
  unfold reactErrand
  cases hr : (f.engine e).reaction m with
  | nothing => exact .inl rfl
  | membership change => exact .inl rfl
  | enquiry => exact .inr (.inl ⟨_, Message.follows_enquiry hr _ _ _, rfl⟩)
  | dispatch => exact .inr (.inr rfl)

/-- To process a message is to touch its sender in the end, and to react to it before, or not. -/
theorem perform_process :
    (f.perform ⟨.process e m, causes⟩).2 = [⟨.touch e m.sender (f.engine e).clock, causes⟩] ∨
      (f.perform ⟨.process e m, causes⟩).2 =
        ((f.inspect e m).reactErrand e m (f.engine e).clock causes).2 ++
          [⟨.touch e m.sender (f.engine e).clock, causes⟩] := by
  simp only [perform, Closed.engine_inspect]
  split
  · exact .inr rfl
  · exact .inl rfl

/-- What a chained errand comes down to is chained. -/
theorem chained_perform (ht : t.Chained) (hu : u ∈ (f.perform t).2) : u.Chained := by
  obtain ⟨chore, causes⟩ := t
  cases chore with
  | send e m =>
    obtain ⟨x, -, rfl⟩ := List.mem_map.1 hu
    exact ht
  | hand x m =>
    simp only [perform] at hu
    split at hu
    · obtain ⟨d, hd, rfl⟩ := List.mem_map.1 hu
      show (d.2 :: causes).Pairwise Message.Below
      cases causes with
      | nil => exact List.pairwise_singleton _ d.2
      | cons cause causes =>
        have hcarried := (ht.2 (by simp)).symm.trans (Closed.mem_send hd)
        rw [← Except.ok.inj hcarried]
        exact ht.1
    · exact absurd hu List.not_mem_nil
  | receive e m =>
    simp only [perform] at hu
    split at hu
    · obtain rfl := List.mem_singleton.1 hu
      exact ht
    · exact absurd hu List.not_mem_nil
  | process e m =>
    have hreact : ∀ u ∈ ((f.inspect e m).reactErrand e m (f.engine e).clock causes).2, u.Chained := by
      intro u hu
      obtain h | ⟨r, hr, h⟩ | h := @reactErrand_cases (f.inspect e m) e m causes (f.engine e).clock
      · rw [h] at hu
        exact absurd hu List.not_mem_nil
      · rw [h] at hu
        obtain rfl := List.mem_singleton.1 hu
        exact Errand.chained_follow ht hr e
      · rw [h] at hu
        obtain ⟨l, -, rfl⟩ := List.mem_map.1 hu
        exact ht
    rcases @perform_process f e m causes with h | h
    · rw [h] at hu
      obtain rfl := List.mem_singleton.1 hu
      trivial
    · rw [h, List.mem_append, List.mem_singleton] at hu
      rcases hu with hu | rfl
      · exact hreact u hu
      · trivial
  | call l m =>
    cases l with
    | recorder name => exact absurd hu List.not_mem_nil
    | responder a cloud =>
      change u ∈ (f.answerErrand a cloud m causes).2 at hu
      obtain h | ⟨e, r, hr, h⟩ := @answerErrand_cases f m causes a cloud
      · rw [h] at hu
        exact absurd hu List.not_mem_nil
      · rw [h] at hu
        obtain rfl := List.mem_singleton.1 hu
        exact Errand.chained_follow ht hr e
  | touch e sender now => exact absurd hu List.not_mem_nil

/-! ## Who is reached -/

/-- How many engines hear what is handed to a gateway. -/
def hearers (f : Fabric) (x : GatewayId) : Nat :=
  match (f.gateway x).conduit with
  | .socket b _ => (f.bus b).audience.length
  | .sink _ _ => 0

/-- How many engines hear what an engine sends. -/
def reach (f : Fabric) (e : EngineId) : Nat := ((f.engine e).gateways.map f.hearers).sum

/-- Two fabrics in which the same engines and listeners are reached in the same way. -/
structure Steady (f g : Fabric) : Prop where
  audience : ∀ e, (g.engine e).fanout.audience = (f.engine e).fanout.audience
  gateways : ∀ e, (g.engine e).gateways = (f.engine e).gateways
  hearers : g.hearers = f.hearers

theorem Steady.refl (f : Fabric) : f.Steady f := ⟨fun _ => rfl, fun _ => rfl, rfl⟩

theorem Steady.trans (hfg : f.Steady g) (hgh : g.Steady h) : f.Steady h where
  audience := fun e => (hgh.audience e).trans (hfg.audience e)
  gateways := fun e => (hgh.gateways e).trans (hfg.gateways e)
  hearers := hgh.hearers.trans hfg.hearers

theorem Steady.reach (hfg : f.Steady g) (e : EngineId) : g.reach e = f.reach e := by
  rw [Fabric.reach, Fabric.reach, hfg.gateways, hfg.hearers]

/-- Engines, gateways and buses are the same. -/
theorem Steady.of_eq (he : g.engines = f.engines) (hx : g.gateways = f.gateways)
    (hb : g.buses = f.buses) : f.Steady g := by
  have hengine : ∀ e, g.engine e = f.engine e := fun e => by rw [engine, he, engine]
  constructor
  case audience => exact fun e => by rw [hengine]
  case gateways => exact fun e => by rw [hengine]
  case hearers =>
    funext x
    simp only [Fabric.hearers, gateway, bus, hx, hb]

/-- An engine that keeps its listeners and its gateways. -/
theorem steady_setEngine {x : Engine} (ha : x.fanout.audience = (f.engine e).fanout.audience)
    (hx : x.gateways = (f.engine e).gateways) : f.Steady (f.setEngine e x) := by
  by_cases he : e < f.engines.length
  · constructor
    case audience =>
      intro d
      by_cases hd : d = e
      · subst hd
        rw [engine_setEngine_self x he, ha]
      · rw [engine_setEngine_ne x hd]
    case gateways =>
      intro d
      by_cases hd : d = e
      · subst hd
        rw [engine_setEngine_self x he, hx]
      · rw [engine_setEngine_ne x hd]
    case hearers => rfl
  · have hsame : f.setEngine e x = f := by
      simp [setEngine, List.set_eq_of_length_le (Nat.le_of_not_lt he)]
    rw [hsame]
    exact .refl f

theorem steady_setBus {b : BusId} {bus : Bus EngineId} (hb : bus.sockets = (f.bus b).sockets) :
    f.Steady (f.setBus b bus) := by
  have hsockets := (aside_setBus hb).sockets
  refine ⟨fun _ => rfl, fun _ => rfl, ?_⟩
  funext x
  simp only [Fabric.hearers, show (f.setBus b bus).gateway x = f.gateway x from rfl]
  split
  · next c _ _ => simp only [Bus.audience, hsockets c]
  · rfl

/-- A gateway with nobody behind it that keeps one message more. -/
theorem steady_sink {x : GatewayId} {answer answer' : Option DeliveryStatus}
    {sent sent' : List Message} (hx : (f.gateway x).conduit = .sink answer sent) :
    f.Steady (f.setConduit x (.sink answer' sent')) := by
  refine ⟨fun _ => rfl, fun _ => rfl, ?_⟩
  funext y
  have hbus : ∀ b, (f.setConduit x (.sink answer' sent')).bus b = f.bus b := fun _ => rfl
  by_cases hy : y = x
  · subst hy
    have hnow : ((f.setConduit y (.sink answer' sent')).gateway y).conduit = .sink answer' sent' ∨
        (f.setConduit y (.sink answer' sent')).gateway y = f.gateway y := by
      by_cases hlt : y < f.gateways.length
      · simp [setConduit, gateway, List.getD, hlt]
      · simp [setConduit, List.modify_eq_self (Nat.le_of_not_lt hlt), gateway]
    rcases hnow with hnow | hnow <;> simp [Fabric.hearers, hnow, hx]
  · have hother : (f.setConduit x (.sink answer' sent')).gateway y = f.gateway y := by
      simp [setConduit, gateway, List.getD, Ne.symm hy]
    simp only [Fabric.hearers, hother, hbus]

theorem steady_inspect : f.Steady (f.inspect e m) := by
  unfold inspect
  simp only [releaseThreads_eq]
  exact .of_eq rfl rfl rfl

theorem steady_wake (t : Task) : f.Steady (f.wake t) := by
  unfold wake
  split <;> exact .of_eq rfl rfl rfl

theorem steady_dispatchErrand : f.Steady (f.dispatchErrand e m causes).1 := by
  have hfanout : f.Steady (f.setFanout e ((f.engine e).fanout.dispatch m).1) := by
    refine steady_setEngine ?_ rfl
    simp only [Fanout.dispatch]
    split
    · rfl
    · split <;> rfl
  simp only [dispatchErrand]
  split
  · exact hfanout
  · exact hfanout.trans (steady_wake _)

theorem steady_reactErrand (now : Nat) : f.Steady (f.reactErrand e m now causes).1 := by
  unfold reactErrand
  split
  · exact .refl f
  · next change _ =>
    apply steady_setEngine <;> cases change <;> rfl
  · exact .of_eq rfl rfl rfl
  · exact steady_dispatchErrand

/-- No errand changes who is reached. -/
theorem steady_perform : f.Steady (f.perform t).1 := by
  obtain ⟨chore, causes⟩ := t
  cases chore with
  | send e m => exact .refl f
  | hand x m =>
    simp only [perform]
    split
    · exact steady_setBus Closed.sockets_send
    · next hx => exact steady_sink hx
  | receive e m => exact .refl f
  | process e m =>
    simp only [perform]
    split
    · exact steady_inspect.trans (steady_reactErrand _)
    · exact steady_inspect
  | call l m =>
    cases l with
    | recorder name => exact .of_eq rfl rfl rfl
    | responder a cloud =>
      simp only [perform, answerErrand]
      split <;> exact .of_eq rfl rfl rfl
  | touch e sender now => exact steady_setEngine rfl rfl

end Fabric

/-! ## Weights -/

/-- How many messages are sent at most if each of them brings about a number of others, over some
generations. -/
def Cascade.volume (branches : Nat) : Nat → Nat
  | 0 => 0
  | generations + 1 => 1 + branches * volume branches generations

/-- What a message that was received and all that comes of it can send, if it has so many causes,
where an engine that sends reaches at most so many engines, and each of these calls at most so many
listeners. -/
def Cascade.yield (voices range causes : Nat) : Nat :=
  voices * volume (range * voices) (3 - causes)

/-- What an errand and all that comes of it can send. -/
def Errand.weight (hearers : GatewayId → Nat) (voices range : Nat) : Errand → Nat
  | ⟨.send _ _, causes⟩ => Cascade.volume (range * voices) (4 - causes.length)
  | ⟨.hand x _, causes⟩ => hearers x * Cascade.yield voices range causes.length
  | ⟨.receive _ _, causes⟩ | ⟨.process _ _, causes⟩ => Cascade.yield voices range causes.length
  | ⟨.call _ _, causes⟩ => Cascade.volume (range * voices) (3 - causes.length)
  | ⟨.touch _ _ _, _⟩ => 0

section Sums

variable {α : Type} {l : List α} {a w k : Nat} {g : α → Nat}

theorem sum_map_le_length_mul (h : ∀ a ∈ l, g a ≤ w) : (l.map g).sum ≤ l.length * w := by
  have hsum := List.sum_le_card_nsmul (l.map g) w (by simpa using h)
  simpa using hsum

theorem le_foldr_max {l : List Nat} (h : a = k ∨ a ∈ l) : a ≤ l.foldr max k := by
  induction l with
  | nil => simpa using Nat.le_of_eq (h.resolve_right List.not_mem_nil)
  | cons b l ih =>
    simp only [List.foldr_cons, List.mem_cons] at h ⊢
    rcases h with h | rfl | h
    · exact Nat.le_trans (ih (.inl h)) (Nat.le_max_right _ _)
    · exact Nat.le_max_left _ _
    · exact Nat.le_trans (ih (.inr h)) (Nat.le_max_right _ _)

end Sums

namespace Fabric

variable {f g : Fabric} {e : EngineId} {m : Message} {causes : List Message} {t : Errand}
  {voices range : Nat}

/-- Bounds for how many listeners an engine has, one at least, and for how many engines hear what
one sends. -/
structure Within (f : Fabric) (voices range : Nat) : Prop where
  voice : 1 ≤ voices
  audience : ∀ e, (f.engine e).fanout.audience.length ≤ voices
  reach : ∀ e, f.reach e ≤ range

theorem Within.steady (hf : f.Within voices range) (h : f.Steady g) : g.Within voices range where
  voice := hf.voice
  audience := fun e => by
    rw [h.audience]
    exact hf.audience e
  reach := fun e => by
    rw [h.reach]
    exact hf.reach e

theorem length_carry_le {b : Bus EngineId} {status : DeliveryStatus} :
    (b.carry m status).deliveries.length ≤ b.audience.length := by
  unfold Bus.carry
  split
  · simp
  · next audience haudience =>
    split <;> simp

theorem length_dispatch_le {fanout : Fanout Hearer} :
    (fanout.dispatch m).2.length ≤ fanout.audience.length := by
  unfold Fanout.dispatch
  split <;> simp

theorem length_send_le {b : Bus EngineId} {p : SocketId} :
    (b.send p m).2.deliveries.length ≤ b.audience.length := by
  unfold Bus.send
  split
  · simp
  · show (b.carry m (Bus.statusOf m)).deliveries.length ≤ b.audience.length
    exact length_carry_le

/-- A message that is sent and received as often as it can be, in one generation more. -/
theorem volume_succ_causes {n : Nat} (h : n ≤ 3) :
    1 + range * Cascade.yield voices range n = Cascade.volume (range * voices) (4 - n) := by
  rw [show 4 - n = 3 - n + 1 by omega, Cascade.volume, Cascade.yield, Nat.mul_assoc]

theorem weight_follow {r : Message} :
    Errand.weight f.hearers voices range ⟨.send e r, m :: causes⟩ =
      Cascade.volume (range * voices) (3 - causes.length) := by
  rw [Errand.weight, List.length_cons, Nat.add_sub_add_right 3 1]

theorem weigh_react (hf : f.Within voices range) (causes : List Message) (now : Nat) :
    ((f.reactErrand e m now causes).2.map (Errand.weight f.hearers voices range)).sum ≤
      Cascade.yield voices range causes.length := by
  obtain h | ⟨r, -, h⟩ | h := @reactErrand_cases f e m causes now
  · simp [h]
  · rw [h, List.map_singleton, List.sum_singleton, weight_follow]
    exact Nat.le_mul_of_pos_left _ hf.voice
  · have hcalls : ((((f.engine e).fanout.dispatch m).2.map fun _ =>
        Cascade.volume (range * voices) (3 - causes.length))).sum ≤ _ :=
      sum_map_le_length_mul fun l _ => Nat.le_refl _
    rw [h, List.map_map]
    refine Nat.le_trans hcalls (Nat.mul_le_mul_right _ ?_)
    exact Nat.le_trans length_dispatch_le (hf.audience e)

/-- **An errand weighs no less than what it sends and what it comes down to.** -/
theorem weigh_perform (hf : f.Within voices range) (ht : t.Chained) :
    t.sends.length + ((f.perform t).2.map (Errand.weight f.hearers voices range)).sum ≤
      t.weight f.hearers voices range := by
  obtain ⟨chore, causes⟩ := t
  cases chore with
  | send e m =>
    have hhand : ((f.perform ⟨.send e m, causes⟩).2.map
        (Errand.weight f.hearers voices range)).sum =
        f.reach e * Cascade.yield voices range causes.length := by
      rw [perform, List.map_map]
      exact List.sum_map_mul_right _ f.hearers _
    rw [hhand, Errand.weight, ← volume_succ_causes (Message.length_causes_le ht.1)]
    exact Nat.add_le_add_left (Nat.mul_le_mul_right _ (hf.reach e)) 1
  | hand x m =>
    simp only [Errand.sends, List.length_nil, Nat.zero_add, perform]
    cases hx : (f.gateway x).conduit with
    | sink answer sent => simp
    | socket b p =>
      have hhearers : f.hearers x = (f.bus b).audience.length := by simp only [hearers, hx]
      have hreceive : ((((f.bus b).send p m).2.deliveries.map fun _ =>
          Cascade.yield voices range causes.length)).sum ≤ _ :=
        sum_map_le_length_mul fun d _ => Nat.le_refl _
      simp only [List.map_map]
      rw [Errand.weight, hhearers]
      exact Nat.le_trans hreceive (Nat.mul_le_mul_right _ length_send_le)
  | receive e m =>
    simp only [Errand.sends, List.length_nil, Nat.zero_add, perform]
    split <;> simp [Errand.weight]
  | process e m =>
    have hinspect : f.Steady (f.inspect e m) := steady_inspect
    have hreact := weigh_react (m := m) (e := e) (hf.steady hinspect) causes
      (f.engine e).clock
    rw [hinspect.hearers] at hreact
    simp only [Errand.sends, List.length_nil, Nat.zero_add]
    rcases @perform_process f e m causes with h | h
    · simp [h, Errand.weight]
    · simpa [h, Errand.weight] using hreact
  | call l m =>
    cases l with
    | recorder name => simp [Errand.sends, perform]
    | responder a cloud =>
      simp only [Errand.sends, List.length_nil, Nat.zero_add, perform]
      obtain h | ⟨d, r, -, h⟩ := @answerErrand_cases f m causes a cloud
      · simp [h]
      · rw [h, List.map_singleton, List.sum_singleton, weight_follow]
        exact Nat.le_refl _
  | touch e sender now => simp [Errand.sends, perform]

/-- The most listeners that an engine has; one, if that is none. -/
def maxVoices (f : Fabric) : Nat := (f.engines.map fun x => x.fanout.audience.length).foldr max 1

def maxReach (f : Fabric) : Nat := ((List.range f.engines.length).map f.reach).foldr max 0

theorem within_self (f : Fabric) : f.Within f.maxVoices f.maxReach := by
  constructor
  case voice => exact le_foldr_max (.inl rfl)
  case audience =>
    intro e
    by_cases he : e < f.engines.length
    · refine le_foldr_max (.inr (List.mem_map.2 ⟨f.engine e, ?_, rfl⟩))
      simp [engine, List.getD, he]
    · have hnone : f.engine e = default := by simp [engine, List.getD, Nat.le_of_not_lt he]
      rw [hnone]
      exact Nat.zero_le _
  case reach =>
    intro e
    by_cases he : e < f.engines.length
    · exact le_foldr_max (.inr (List.mem_map.2 ⟨e, List.mem_range.2 he, rfl⟩))
    · have hnone : f.engine e = default := by simp [engine, List.getD, Nat.le_of_not_lt he]
      rw [reach, hnone]
      exact Nat.zero_le _

end Fabric

/-! ## Whole cascades -/

/-- A cascade that stays within a limit: what is to be done and what was sent are chained, and what
was sent and what may still be sent is no more than the limit. -/
structure Cascade.Tame (voices range limit : Nat) (c : Cascade) : Prop where
  within : c.fabric.Within voices range
  todo : ∀ t ∈ c.todo, t.Chained
  sent : ∀ s ∈ c.sent, (s.message :: s.causes).Pairwise Message.Below
  bound : c.sent.length + (c.todo.map (Errand.weight c.fabric.hearers voices range)).sum ≤ limit

namespace Cascade

variable {c : Cascade} {voices range limit : Nat}

theorem chained_sends {t : Errand} (ht : t.Chained) {s : Sending} (hs : s ∈ t.sends) :
    (s.message :: s.causes).Pairwise Message.Below := by
  obtain ⟨chore, causes⟩ := t
  cases chore with
  | send e m =>
    obtain rfl := List.mem_singleton.1 hs
    exact ht.1
  | _ => exact absurd hs List.not_mem_nil

theorem Tame.step (h : c.Tame voices range limit) : c.step.Tame voices range limit := by
  obtain ⟨f, todo, sent⟩ := c
  cases todo with
  | nil => exact h
  | cons t rest =>
    have ht := h.todo t List.mem_cons_self
    have hsteady : f.Steady (f.perform t).1 := Fabric.steady_perform
    constructor
    case within => exact h.within.steady hsteady
    case todo =>
      intro u hu
      rcases List.mem_append.1 hu with hu | hu
      · exact Fabric.chained_perform ht hu
      · exact h.todo u (List.mem_cons_of_mem _ hu)
    case sent =>
      intro s hs
      rcases List.mem_append.1 hs with hs | hs
      · exact chained_sends ht hs
      · exact h.sent s hs
    case bound =>
      have hweight := Fabric.weigh_perform h.within ht
      have hbound := h.bound
      simp only [List.map_cons, List.sum_cons] at hbound hweight
      simp only [Cascade.step, hsteady.hearers, List.length_append, List.map_append,
        List.sum_append]
      omega

theorem Tame.run (h : c.Tame voices range limit) (n : Nat) : (c.run n).Tame voices range limit := by
  induction n generalizing c with
  | zero => exact h
  | succ n ih => exact ih h.step

end Cascade

/-- What sets a cascade off. -/
inductive Impulse where
  /-- An engine sends a message. -/
  | send (engine : EngineId) (message : Message)
  /-- A message comes to a bus from outside. -/
  | inject (bus : BusId) (message : Message)
  /-- An engine is handed a message directly. -/
  | process (engine : EngineId) (message : Message)

namespace Impulse

/-- What is to be done at first. Nothing has caused it. -/
def errands (f : Fabric) : Impulse → List Errand
  | send e m => [⟨.send e m, []⟩]
  | inject b m => ((f.bus b).inject m).deliveries.map fun d => ⟨.receive d.1 d.2, []⟩
  | process e m => [⟨.process e m, []⟩]

def outcome (f : Fabric) : Impulse → Fabric
  | send e m => (f.send e m).1
  | inject b m => (f.inject b m).1
  | process e m => f.process e m

def limit (f : Fabric) : Impulse → Nat
  | send _ _ => Cascade.volume (f.maxReach * f.maxVoices) 4
  | inject b _ => (f.bus b).audience.length * Cascade.yield f.maxVoices f.maxReach 0
  | process _ _ => Cascade.yield f.maxVoices f.maxReach 0

def cascade (f : Fabric) (i : Impulse) : Cascade := ⟨f, i.errands f, []⟩

theorem does_errands (f : Fabric) (i : Impulse) : f.Does (i.errands f) (i.outcome f) := by
  cases i with
  | send e m => exact Fabric.does_send f e m []
  | inject b m => exact Fabric.does_inject f b m []
  | process e m => exact Fabric.does_process f e m []

theorem tame_cascade (f : Fabric) (i : Impulse) :
    (i.cascade f).Tame f.maxVoices f.maxReach (i.limit f) := by
  constructor
  case within => exact f.within_self
  case todo =>
    intro t ht
    cases i with
    | send e m =>
      obtain rfl := List.mem_singleton.1 ht
      exact ⟨List.pairwise_singleton _ m, fun h => absurd rfl h⟩
    | inject b m =>
      obtain ⟨d, -, rfl⟩ := List.mem_map.1 ht
      exact List.pairwise_singleton _ d.2
    | process e m =>
      obtain rfl := List.mem_singleton.1 ht
      exact List.pairwise_singleton _ m
  case sent => exact fun s hs => absurd hs List.not_mem_nil
  case bound =>
    cases i with
    | send e m => simp [cascade, errands, limit, Errand.weight]
    | inject b m =>
      simp only [cascade, errands, limit, List.length_nil, Nat.zero_add, List.map_map]
      refine Nat.le_trans (sum_map_le_length_mul fun d _ => Nat.le_refl _) ?_
      exact Nat.mul_le_mul_right _ Fabric.length_carry_le
    | process e m => simp [cascade, errands, limit, Errand.weight]

/-- **No message storm.** Whatever sets it off, and whatever the fabric: the errands come to an end,
with the fabric that the nested definitions say. Every message that was sent is of a lower kind than
the one that it was sent in the handling of, that one of a lower kind than its own cause, and so on;
there are no more than three causes of anything, and no more messages than the limit says. -/
theorem cascade_ends (f : Fabric) (i : Impulse) :
    ∃ n, ((i.cascade f).run n).todo = [] ∧ ((i.cascade f).run n).fabric = i.outcome f ∧
      (∀ s ∈ ((i.cascade f).run n).sent,
        (s.message :: s.causes).Pairwise Message.Below ∧ s.causes.length ≤ 3) ∧
      ((i.cascade f).run n).sent.length ≤ i.limit f := by
  obtain ⟨n, sent, hrun⟩ := does_errands f i
  have hend : (i.cascade f).run n = ⟨i.outcome f, [], sent⟩ := by
    have hrun := hrun [] []
    rwa [List.append_nil, List.append_nil] at hrun
  have htame := (tame_cascade f i).run n
  refine ⟨n, by rw [hend], by rw [hend], fun s hs => ?_, ?_⟩
  · have hchain := htame.sent s hs
    exact ⟨hchain, Message.length_causes_le hchain⟩
  · exact Nat.le_trans (Nat.le_add_right _ _) htame.bound

end Impulse

end Overlay
