import Overlay.Proofs.Cascade.Trace
import Overlay.Proofs.Delivery.Statuses
import Overlay.Proofs.Lone.Echo

/-!
# What a receipt tells of a sending

A message is handed to the gateways of an engine one after the other. What each of them takes is
heard before the next one gets it, and whoever hears it may send messages in turn, also through the
same gateways. None of that changes a gateway (`Fabric.SameGates`), so what becomes of the message
at each gateway is settled when the sending begins: the verdict on it (`Fabric.verdict`) and, if the
gateway takes it, to whom it goes (`Transmission`).
-/

namespace Overlay

namespace Receipt

variable {r : Receipt DeliveryStatus}

/-- A status is that of one of the gates, unless nothing is known of any. -/
theorem status_cases (r : Receipt DeliveryStatus) : r.status ∈ r.leaves ∨ r.status = .unknown := by
  rw [status_eq_sup]
  rcases r.leaves.toFinset.eq_empty_or_nonempty with hnone | hsome
  · rw [hnone]
    exact .inr rfl
  · obtain ⟨s, hs, hsup⟩ := Finset.exists_mem_eq_sup _ hsome id
    rw [hsup]
    exact .inl (List.mem_toFinset.1 hs)

theorem le_status {s : DeliveryStatus} (hs : s ∈ r.leaves) : s ≤ r.status := by
  rw [status_eq_sup]
  exact Finset.le_sup (List.mem_toFinset.2 hs) (f := id)

/-- Where nothing is pending, a failure shows if and only if nothing has been delivered. -/
theorem status_eq_failed_iff (hpending : .pending ∉ r.leaves) :
    r.status = .failed ↔ .failed ∈ r.leaves ∧ r.status ≠ .delivered := by
  constructor
  · intro h
    have hcases := r.status_cases
    rw [h] at hcases ⊢
    exact ⟨hcases.resolve_right nofun, nofun⟩
  · rintro ⟨hfailed, hdelivered⟩
    have hle := le_status hfailed
    cases h : r.status with
    | failed => rfl
    | unknown => rw [h] at hle; exact absurd hle (by decide)
    | delivered => exact absurd h hdelivered
    | pending =>
      have hcases := r.status_cases
      rw [h] at hcases
      exact absurd (hcases.resolve_right nofun) hpending

/-- The gates of a joint receipt of gates only. -/
theorem leaves_joint_gates {α : Type} (message : Uuid) (as : List α) (name : α → String)
    (state : α → DeliveryStatus) :
    (joint message (as.map fun a => gate message (name a) (state a))).leaves = as.map state := by
  rw [leaves, leavesEach_eq, List.flatMap_map, List.map_eq_flatMap]
  rfl

end Receipt

namespace Bus

variable {ℓ : Type} {b : Bus ℓ} {p : SocketId} {m : Message}

/-- Whether a message that is sent through a socket comes to grief there. -/
def rejects (b : Bus ℓ) (p : SocketId) (m : Message) : Bool :=
  (b.socket p).closed || (b.socket p).failing || (!b.audience.isEmpty && !(carried m).isOk)

/-- A socket is closed or failing, or somebody hears the bus and cannot read the message. -/
theorem rejects_iff : b.rejects p m = true ↔ (b.socket p).closed = true ∨
    (b.socket p).failing = true ∨ b.audience ≠ [] ∧ ∃ fault, carried m = .error fault := by
  have hcarried : (carried m).isOk = false ↔ ∃ fault, carried m = .error fault := by
    cases carried m <;> simp [Except.isOk, Except.toBool]
  simp [rejects, hcarried, or_assoc]

theorem statusAfter_carry (status : DeliveryStatus) :
    Fabric.statusAfter (b.carry m status).outcome =
      if !b.audience.isEmpty && !(carried m).isOk then .failed else status := by
  unfold carry
  cases b.audience with
  | nil => rfl
  | cons l ls => cases carried m <;> rfl

theorem statusAfter_send : Fabric.statusAfter (b.send p m).2.outcome =
    if b.rejects p m then .failed else statusOf m := by
  cases hrefusal : (b.socket p).refusal? m with
  | some failure =>
    rw [send_of_refusal hrefusal, if_pos (rejects_iff.2 ?_)]
    · rfl
    · rw [← or_assoc]
      exact .inl (refusal?_eq_some hrefusal)
  | none =>
    obtain ⟨hclosed, hfailing⟩ := Socket.refusal?_eq_none_iff.1 hrefusal
    rw [send_of_open hrefusal, statusAfter_carry, rejects, hclosed, hfailing]
    rfl

/-- Where a message is not rejected, everybody hears it. -/
theorem audience_carry {status : DeliveryStatus} (h : b.rejects p m = false) :
    (b.carry m status).deliveries.map Prod.fst = b.audience := by
  simp only [rejects, Bool.or_eq_false_iff] at h
  unfold carry
  cases haudience : b.audience with
  | nil => rfl
  | cons l ls =>
    rw [haudience] at h
    cases hcarried : carried m with
    | error fault => simp [hcarried, Except.isOk, Except.toBool] at h
    | ok n => simp [Function.comp_def]

end Bus

/-- A message that a gateway has taken to its bus, and who gets what of it there. -/
structure Transmission where
  gateway : GatewayId
  bus : BusId
  message : Message
  deliveries : List (EngineId × Message)

namespace Fabric

variable {f g h : Fabric} {e : EngineId} {m : Message} {x : GatewayId} {xs : List GatewayId}
  {b : BusId} {p : SocketId} {t : Errand} {causes : List Message} {receive : Reception}

/-! ## Gateways stay as they are -/

/-- Two fabrics in which the engines have the same gateways, and these have the same names and lead
to the same places. -/
structure SameGates (f g : Fabric) : Prop where
  gateways : ∀ e, (g.engine e).gateways = (f.engine e).gateways
  name : ∀ x, (g.gateway x).name = (f.gateway x).name
  conduit : ∀ {x b p}, (f.gateway x).conduit = .socket b p → (g.gateway x).conduit = .socket b p
  sockets : ∀ b, (g.bus b).sockets = (f.bus b).sockets

namespace SameGates

theorem refl (f : Fabric) : f.SameGates f := ⟨fun _ => rfl, fun _ => rfl, id, fun _ => rfl⟩

theorem trans (hfg : f.SameGates g) (hgh : g.SameGates h) : f.SameGates h where
  gateways := fun e => (hgh.gateways e).trans (hfg.gateways e)
  name := fun x => (hgh.name x).trans (hfg.name x)
  conduit := fun hx => hgh.conduit (hfg.conduit hx)
  sockets := fun b => (hgh.sockets b).trans (hfg.sockets b)

/-- Only what is neither a gateway nor a bus is different, and the ways are the same. -/
theorem of_ways (h : f.SameWays g) (hx : g.gateways = f.gateways) (hb : g.buses = f.buses) :
    f.SameGates g where
  gateways := h.gateways
  name := fun x => by rw [gateway, hx, gateway]
  conduit := fun h => by rwa [gateway, hx]
  sockets := fun b => by rw [bus, hb, bus]

theorem sink {answer : Option DeliveryStatus} {sent sent' : List Message}
    (hx : (f.gateway x).conduit = .sink answer sent) :
    f.SameGates (f.setConduit x (.sink answer sent')) where
  gateways := fun _ => rfl
  name := by
    intro y
    simp only [setConduit, gateway, List.getD, List.getElem?_modify]
    split <;> cases f.gateways[y]? <;> rfl
  conduit := (aside_sink hx).conduit
  sockets := fun _ => rfl

theorem inspect : f.SameGates (f.inspect e m) := by
  refine of_ways .inspect ?_ ?_ <;>
  · unfold Fabric.inspect
    simp only [releaseThreads_eq]
    rfl

theorem reactErrand {now : Nat} : f.SameGates (f.reactErrand e m now causes).1 := by
  have hwake : ∀ (f : Fabric) t, (f.wake t).gateways = f.gateways ∧ (f.wake t).buses = f.buses := by
    intro f t
    unfold wake
    split <;> exact ⟨rfl, rfl⟩
  have hplaces : (f.reactErrand e m now causes).1.gateways = f.gateways ∧
      (f.reactErrand e m now causes).1.buses = f.buses := by
    unfold Fabric.reactErrand
    split
    · exact ⟨rfl, rfl⟩
    · exact ⟨rfl, rfl⟩
    · exact ⟨rfl, rfl⟩
    · simp only [dispatchErrand]
      split
      · exact ⟨rfl, rfl⟩
      · exact hwake _ _
  exact of_ways (ways_reactErrand now) hplaces.1 hplaces.2

/-- No errand changes a gateway. -/
theorem perform : f.SameGates (f.perform t).1 := by
  have hways : f.SameWays (f.perform t).1 := ways_perform
  obtain ⟨chore, causes⟩ := t
  cases chore with
  | send e m => exact .refl f
  | hand x m =>
    simp only [Fabric.perform]
    split
    · exact ⟨fun _ => rfl, fun _ => rfl, id, (aside_setBus Closed.sockets_send).sockets⟩
    · next hx => exact .sink hx
  | receive e m => exact .refl f
  | process e m =>
    simp only [Fabric.perform]
    split
    · exact inspect.trans reactErrand
    · exact inspect
  | call l m =>
    cases l with
    | recorder name => exact of_ways hways rfl rfl
    | responder a cloud =>
      refine of_ways hways ?_ ?_ <;> simp only [Fabric.perform, answerErrand] <;> split <;> rfl
  | touch e sender now => exact of_ways hways rfl rfl

theorem enduring : Enduring SameGates := ⟨refl, trans, fun _ _ => perform⟩

end SameGates

/-! ## What a gateway makes of a message -/

/-- What is known of a message after it has been handed to a gateway. -/
def verdict (f : Fabric) (m : Message) (x : GatewayId) : DeliveryStatus :=
  match (f.gateway x).conduit with
  | .socket b p => if (f.bus b).rejects p m then .failed else Bus.statusOf m
  | .sink answer _ => answer.getD .failed

theorem verdict_eq_failed_iff (hx : (f.gateway x).conduit = .socket b p) :
    f.verdict m x = .failed ↔ ((f.bus b).socket p).closed = true ∨
      ((f.bus b).socket p).failing = true ∨
      (f.bus b).audience ≠ [] ∧ ∃ fault, Bus.carried m = .error fault := by
  have hstatus : Bus.statusOf m ≠ .failed := by
    unfold Bus.statusOf
    split <;> simp
  rw [← Bus.rejects_iff, verdict, hx]
  cases hrejects : (f.bus b).rejects p m <;> simp [hrejects, hstatus]

/-- What a gateway has not failed to send has the status that was asked for. -/
theorem verdict_of_ne_failed (hx : (f.gateway x).conduit = .socket b p)
    (hverdict : f.verdict m x ≠ .failed) : f.verdict m x = Bus.statusOf m := by
  rw [verdict, hx] at hverdict ⊢
  simp only at hverdict ⊢
  split
  · next hrejects => exact absurd (if_pos hrejects) hverdict
  · rfl

theorem SameGates.verdict (h : f.SameGates g) (hx : (f.gateway x).conduit = .socket b p) :
    g.verdict m x = f.verdict m x := by
  simp only [Fabric.verdict, h.conduit hx, hx, Bus.rejects, Bus.socket, Bus.audience, h.sockets]
  rfl

theorem statusAfter_transmit (hx : (f.gateway x).conduit = .socket b p) :
    statusAfter (f.transmit receive x m).2 = f.verdict m x := by
  simp only [transmit, verdict, hx]
  exact Bus.statusAfter_send

theorem same_gates_transmit : f.SameGates (f.transmit Fabric.receive x m).1 :=
  (does_transmit (fun n _ f e => does_receive f e n []) f x).related SameGates.enduring

/-- **Each gateway gives its own receipt**, whatever becomes of the message at the others. -/
theorem receipts_transmitAll (hsockets : ∀ x ∈ xs, ∃ b p, (f.gateway x).conduit = .socket b p) :
    (f.transmitAll Fabric.receive m xs).2 =
      xs.map fun x => .gate m.uuid (f.gateway x).name (f.verdict m x) := by
  induction xs generalizing f with
  | nil => rfl
  | cons x xs ih =>
    obtain ⟨b, p, hx⟩ := hsockets x List.mem_cons_self
    have hsame : f.SameGates (f.transmit Fabric.receive x m).1 := same_gates_transmit
    have hrest : ∀ y ∈ xs, ∃ b p, (f.gateway y).conduit = .socket b p :=
      fun y hy => hsockets y (List.mem_cons_of_mem x hy)
    have hreceipts := ih fun y hy => by
      obtain ⟨c, q, hy⟩ := hrest y hy
      exact ⟨c, q, hsame.conduit hy⟩
    simp only [transmitAll, List.map_cons, statusAfter_transmit hx, hreceipts, hsame.name]
    refine congrArg _ (List.map_congr_left fun y hy => ?_)
    obtain ⟨c, q, hy⟩ := hrest y hy
    rw [hsame.verdict hy]

/-! ## What gateways take to their buses -/

def transmissionsAt (f : Fabric) : Errand → List Transmission
  | ⟨.hand x m, _⟩ => (f.outlet? x).toList.map fun b =>
    ⟨x, b, m, ((f.bus b).carry m (Bus.statusOf m)).deliveries⟩
  | _ => []

/-- What is seen is what goes out. -/
theorem perform_hand : (f.perform ⟨.hand x m, causes⟩).2 =
    (f.transmissionsAt ⟨.hand x m, causes⟩).flatMap fun t =>
      t.deliveries.map fun d => ⟨.receive d.1 d.2, causes⟩ := by
  simp only [perform, transmissionsAt, outlet?]
  cases hx : (f.gateway x).conduit with
  | sink answer sent => rfl
  | socket b p =>
    cases hrefusal : ((f.bus b).socket p).refusal? m with
    | some failure =>
      have hshut : (((f.bus b).socket p).closed || ((f.bus b).socket p).failing) = true := by
        rcases Bus.refusal?_eq_some hrefusal with h | h <;> simp [h]
      simp [Bus.send_of_refusal hrefusal, hshut]
    | none =>
      obtain ⟨hclosed, hfailing⟩ := Socket.refusal?_eq_none_iff.1 hrefusal
      simp [Bus.send_of_open hrefusal, hclosed, hfailing]

theorem SameGates.transmissionsAt (h : f.SameGates g)
    (hx : (f.gateway x).conduit = .socket b p) :
    g.transmissionsAt ⟨.hand x m, causes⟩ = f.transmissionsAt ⟨.hand x m, causes⟩ := by
  simp only [Fabric.transmissionsAt, outlet?, h.conduit hx, hx, Bus.socket, Bus.carry, Bus.audience,
    h.sockets]
  rfl

/-- An errand that hands nothing out, or does so only because of another message. -/
def Inward : Errand → Prop
  | ⟨.send _ _, causes⟩ | ⟨.hand _ _, causes⟩ => causes ≠ []
  | _ => True

/-- What comes in leads to nothing else. -/
theorem Inward.comesTo {u : Errand} (htu : t.ComesTo u) (ht : Inward t) : Inward u := by
  cases htu with
  | hand m causes => exact ht
  | enquire m causes => exact List.cons_ne_nil m causes
  | answer m causes => exact List.cons_ne_nil m causes
  | _ => trivial

/-- What follows from a message that has been taken to a bus is another message's matter. -/
theorem direct_hand {seen : List (Note Transmission)}
    (hnow : Trace transmissionsAt (f.perform ⟨.hand x m, []⟩).1 (f.perform ⟨.hand x m, []⟩).2 g
      seen) : direct seen = [] := by
  refine hnow.direct_eq_nil (P := Inward) (fun u hu => ?_) Inward.comesTo
    fun f t ht hcauses => ?_
  · rw [perform_hand] at hu
    obtain ⟨y, -, hu⟩ := List.mem_flatMap.1 hu
    obtain ⟨d, -, rfl⟩ := List.mem_map.1 hu
    trivial
  · obtain ⟨chore, causes⟩ := t
    cases chore with
    | hand x m => exact absurd hcauses ht
    | _ => rfl

/-- **Every gateway that takes a message takes it to its bus**, in the order of the gateways. -/
theorem direct_send {seen : List (Note Transmission)}
    (hsockets : ∀ x ∈ (f.engine e).gateways, ∃ b p, (f.gateway x).conduit = .socket b p)
    (htrace : Trace transmissionsAt f [⟨.send e m, []⟩] g seen) :
    direct seen = (f.engine e).gateways.flatMap fun x => f.transmissionsAt ⟨.hand x m, []⟩ := by
  cases htrace with
  | @cons _ _ _ _ _ now _ hnow hlater =>
    cases hlater
    have hnow : Trace transmissionsAt f ((f.engine e).gateways.map fun x => ⟨.hand x m, []⟩) g now :=
      hnow
    have heach := hnow.direct_each (fun _ => rfl) direct_hand SameGates.enduring id
      fun h x hx => by
        obtain ⟨b, p, hx⟩ := hsockets x hx
        rw [h.transmissionsAt hx]
    simpa [notes, transmissionsAt] using heach

/-- What a gateway has not failed to send has gone out, and everybody on the bus has got it. -/
theorem mem_transmissionsAt (causes : List Message) (hx : (f.gateway x).conduit = .socket b p)
    (hverdict : f.verdict m x ≠ .failed) :
    ∃ t ∈ f.transmissionsAt ⟨.hand x m, causes⟩, t.gateway = x ∧
      t.deliveries.map Prod.fst = (f.bus t.bus).audience := by
  have hrejects : (f.bus b).rejects p m = false := by
    rw [← Bool.not_eq_true, Bus.rejects_iff, ← verdict_eq_failed_iff hx]
    exact hverdict
  have houtlet : f.outlet? x = some b := by
    simp only [Bus.rejects, Bool.or_eq_false_iff] at hrejects
    simp [outlet?, hx, hrejects.1]
  exact ⟨⟨x, b, m, ((f.bus b).carry m (Bus.statusOf m)).deliveries⟩,
    by simp [transmissionsAt, houtlet], rfl, Bus.audience_carry hrejects⟩

/-! ## The receipt as a whole -/

section Receipts

variable (hsockets : ∀ x ∈ (f.engine e).gateways, ∃ b p, (f.gateway x).conduit = .socket b p)

include hsockets

theorem receipt_send : (f.send e m).2 = .joint m.uuid ((f.engine e).gateways.map fun x =>
    .gate m.uuid (f.gateway x).name (f.verdict m x)) :=
  congrArg (Receipt.joint m.uuid) (receipts_transmitAll hsockets)

theorem leaves_send : (f.send e m).2.leaves = (f.engine e).gateways.map (f.verdict m) := by
  rw [receipt_send hsockets, Receipt.leaves_joint_gates]

theorem verdict_cases (hx : x ∈ (f.engine e).gateways) :
    f.verdict m x = .failed ∨ f.verdict m x ≠ .failed ∧ f.verdict m x = Bus.statusOf m := by
  obtain ⟨b, p, hconduit⟩ := hsockets x hx
  by_cases hverdict : f.verdict m x = .failed
  · exact .inl hverdict
  · exact .inr ⟨hverdict, verdict_of_ne_failed hconduit hverdict⟩

theorem delivered_send_iff : (f.send e m).2.status = .delivered ↔
    m.reliable = true ∧ ∃ x ∈ (f.engine e).gateways, f.verdict m x ≠ .failed := by
  have hstatus : Bus.statusOf m = .delivered ↔ m.reliable = true := by
    cases hm : m.reliable <;> simp [Bus.statusOf, hm]
  rw [Receipt.status_eq_delivered_iff, leaves_send hsockets, List.mem_map, ← hstatus]
  constructor
  · rintro ⟨x, hx, hverdict⟩
    rcases verdict_cases (m := m) hsockets hx with hfailed | ⟨haccepted, hstatus⟩
    · rw [hverdict] at hfailed
      contradiction
    · exact ⟨hstatus.symm.trans hverdict, x, hx, haccepted⟩
  · rintro ⟨hm, x, hx, haccepted⟩
    rcases verdict_cases (m := m) hsockets hx with hfailed | ⟨-, hstatus⟩
    · exact absurd hfailed haccepted
    · exact ⟨x, hx, hstatus.trans hm⟩

theorem failed_send_iff : (f.send e m).2.status = .failed ↔
    (∃ x ∈ (f.engine e).gateways, f.verdict m x = .failed) ∧
      (f.send e m).2.status ≠ .delivered := by
  rw [Receipt.status_eq_failed_iff, leaves_send hsockets, List.mem_map]
  rw [leaves_send hsockets, List.mem_map]
  rintro ⟨x, hx, hverdict⟩
  rcases verdict_cases (m := m) hsockets hx with hfailed | ⟨-, hstatus⟩
  · rw [hverdict] at hfailed
    contradiction
  · rw [hverdict, Bus.statusOf] at hstatus
    split at hstatus <;> contradiction

end Receipts

/-- **A receipt tells what has happened.** A message is sent through gateways that lead to buses,
whatever the engines that hear it send in turn. The receipt has one member for each gateway, in their
order and under their names. A member is failed exactly if the gateway is closed or failing, or if
somebody hears its bus and cannot read the message; otherwise it says what was asked for. So it is
known of the whole whether the message was delivered and whether it has failed. Every gateway that
is open and working takes the message to its bus, whatever becomes of it at the others, and if the
member has not failed everybody on the bus gets it. -/
theorem receipt_tells_of_gateways
    (hsockets : ∀ x ∈ (f.engine e).gateways, ∃ b p, (f.gateway x).conduit = .socket b p)
    (m : Message) :
    (f.send e m).2 = .joint m.uuid ((f.engine e).gateways.map fun x =>
        .gate m.uuid (f.gateway x).name (f.verdict m x)) ∧
      (∀ x ∈ (f.engine e).gateways, ∀ b p, (f.gateway x).conduit = .socket b p →
        (f.verdict m x = .failed ↔ ((f.bus b).socket p).closed = true ∨
          ((f.bus b).socket p).failing = true ∨
          (f.bus b).audience ≠ [] ∧ ∃ fault, Bus.carried m = .error fault) ∧
        (f.verdict m x ≠ .failed →
          f.verdict m x = if m.reliable then .delivered else .unknown)) ∧
      ((f.send e m).2.status = .delivered ↔
        m.reliable = true ∧ ∃ x ∈ (f.engine e).gateways, f.verdict m x ≠ .failed) ∧
      ((f.send e m).2.status = .failed ↔
        (∃ x ∈ (f.engine e).gateways, f.verdict m x = .failed) ∧
          (f.send e m).2.status ≠ .delivered) ∧
      ∃ seen, Trace transmissionsAt f [⟨.send e m, []⟩] (f.send e m).1 seen ∧
        direct seen = ((f.engine e).gateways.filterMap fun x => (f.outlet? x).map fun b =>
          ⟨x, b, m, ((f.bus b).carry m (Bus.statusOf m)).deliveries⟩) ∧
        ∀ x ∈ (f.engine e).gateways, f.verdict m x ≠ .failed →
          ∃ t ∈ direct seen, t.gateway = x ∧ t.deliveries.map Prod.fst = (f.bus t.bus).audience := by
  obtain ⟨seen, htrace⟩ := (does_send f e m []).exists_trace transmissionsAt
  have hdirect := direct_send hsockets htrace
  refine ⟨receipt_send hsockets, fun x _ b p hx => ⟨verdict_eq_failed_iff hx, fun haccepted =>
    verdict_of_ne_failed hx haccepted⟩, delivered_send_iff hsockets, failed_send_iff hsockets, seen,
    htrace, ?_, fun x hx haccepted => ?_⟩
  · rw [hdirect, List.filterMap_eq_flatMap_toList]
    refine List.flatMap_congr fun x _ => ?_
    rw [transmissionsAt, Option.toList_map]
  · obtain ⟨b, p, hconduit⟩ := hsockets x hx
    obtain ⟨t, ht, htells⟩ := mem_transmissionsAt [] hconduit haccepted
    rw [hdirect]
    exact ⟨t, List.mem_flatMap.2 ⟨x, hx, ht⟩, htells⟩

/-- An engine with two gateways of one name on a bus, of which the first is failing. -/
def halfDeaf : Fabric :=
  let f := ((Fabric.empty 0).addBus.addSocket "door" 0).addSocket "door" 0
  (f.setFailing 0 true).addEngine (.cloud default) .standard [0, 1] 0 0

/-- One of two gateways fails, and the message is delivered all the same. -/
theorem receipt_tells_of_gateways_halfDeaf :
    (halfDeaf.send 0 (Message.ping default default default).asReliable).2 =
        .joint default [.gate default "door" .failed, .gate default "door" .delivered] ∧
      (halfDeaf.send 0 (Message.ping default default default).asReliable).2.status =
        .delivered := by
  have hgateways : (halfDeaf.engine 0).gateways = [0, 1] := rfl
  obtain ⟨hreceipt, hverdicts, hdelivered, -⟩ := receipt_tells_of_gateways (f := halfDeaf) (e := 0)
    (by simp only [hgateways, List.forall_mem_cons]; exact ⟨⟨0, 0, rfl⟩, ⟨0, 1, rfl⟩, nofun⟩)
    (Message.ping default default default).asReliable
  have hfirst : halfDeaf.verdict (Message.ping default default default).asReliable 0 = .failed :=
    (hverdicts 0 (by decide) 0 0 rfl).1.2 (.inr (.inl rfl))
  have hsecond : halfDeaf.verdict (Message.ping default default default).asReliable 1 ≠ .failed := by
    rw [ne_eq, (hverdicts 1 (by decide) 0 1 rfl).1, Bus.carried_of_not_app fun b h => by cases h]
    simp only [reduceCtorEq, exists_false, and_false, or_false]
    decide
  refine ⟨?_, hdelivered.2 ⟨rfl, 1, by decide, hsecond⟩⟩
  rw [hreceipt, hgateways, List.map_cons, List.map_singleton, hfirst,
    (hverdicts 1 (by decide) 0 1 rfl).2 hsecond]
  rfl

end Fabric

end Overlay
