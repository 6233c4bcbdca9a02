import Overlay.Proofs.Bus
import Overlay.Proofs.Mesh.Joining
import Overlay.Proofs.Wire.Message

/-!
# Engines that hear only themselves

An engine all of whose gateways are on buses that nobody else hears gets back what it sends, once
for every gateway that takes it and every listener of its own. If an agent of its own has sent the
message, it is not meant for this process: nothing follows from it but what it confirms and the sign
of life that it is.
-/

namespace Overlay

namespace Board

variable {ω : Type} {b : Board ω}

/-- Nobody is released where nobody waits. -/
theorem released_confirmAll_of_unwaited {ss : List SessionId}
    (h : ∀ s ∈ ss, (b.session s).waiters = []) : (b.confirmAll ss).2 = [] := by
  induction ss generalizing b with
  | nil => rfl
  | cons s ss ih =>
    have hnow : (b.session s).confirm.2 = none := by simp [h s List.mem_cons_self]
    have hrest : ((b.confirm s).1.confirmAll ss).2 = [] :=
      ih fun t ht => later_confirm.waiters (h t (List.mem_cons_of_mem _ ht))
    change (b.session s).confirm.2.toList ++ ((b.confirm s).1.confirmAll ss).2 = []
    rw [hnow, hrest]
    rfl

end Board

/-- A sign of life takes no contact back in time, whoever is listed. -/
theorem Directory.lastSeen_le_touchSlot (d : Directory) (s t : Slot) (now : Nat) :
    (d.contact t).lastSeen ≤ ((d.touchSlot s now).contact t).lastSeen := by
  by_cases hs : s < d.slots.length
  · rw [touchSlot, contact_modify _ hs]
    split
    · next hts => exact hts ▸ Nat.le_max_left _ _
    · exact Nat.le_refl _
  · refine Nat.le_of_eq ?_
    rw [touchSlot, modify, List.modify_eq_self (Nat.le_of_not_lt hs)]

theorem Socket.refusal?_eq_none_iff {ℓ : Type} {p : Socket ℓ} {m : Message} :
    p.refusal? m = none ↔ p.closed = false ∧ p.failing = false := by
  cases hclosed : p.closed <;> cases hfailing : p.failing <;> simp [refusal?, hclosed, hfailing]

namespace Fabric

variable {f g h : Fabric} {e : EngineId} {a : AgentId} {m : Message} {x : GatewayId}
  {xs : List GatewayId} {b : BusId} {s : SessionId} {i : Identity}

/-! ## Outlets -/

/-- The bus to which a gateway takes messages, if it takes any. -/
def outlet? (f : Fabric) (x : GatewayId) : Option BusId :=
  match (f.gateway x).conduit with
  | .socket b p =>
    if ((f.bus b).socket p).closed || ((f.bus b).socket p).failing then none else some b
  | .sink _ _ => none

/-- The buses to which the gateways of an engine take messages, one entry for each that takes any.
-/
def outlets (f : Fabric) (e : EngineId) : List BusId :=
  (f.engine e).gateways.filterMap f.outlet?

/-- An engine that is there, whose gateways are sockets that it hears, on buses that nobody else
hears. Its joins are confirmed by the announcements that come back. -/
structure Lone (f : Fabric) (e : EngineId) : Prop where
  present : (f.engine e).present = true
  board : (f.engine e).board < f.boards.length
  criterion : (f.board (f.engine e).board).1 = .echo
  loopback : ∀ x ∈ (f.engine e).gateways, ∃ b p, (f.gateway x).conduit = .socket b p ∧
    b < f.buses.length ∧ e ∈ ((f.bus b).socket p).listeners ∧ ∀ d ∈ (f.bus b).audience, d = e

theorem Lone.lt (hl : f.Lone e) : e < f.engines.length := by
  refine Nat.lt_of_not_le fun hle => ?_
  have hpresent := hl.present
  rw [engine_of_length_le hle] at hpresent
  contradiction

theorem Still.gateways_engine (hs : f.Still g) : (g.engine e).gateways = (f.engine e).gateways :=
  congrArg Fixture.gateways (hs.fixture e)

theorem Still.identity_engine (hs : f.Still g) : (g.engine e).identity = (f.engine e).identity :=
  congrArg Fixture.identity (hs.fixture e)

/-- To be alone depends on ways only. -/
theorem Lone.of_still (hl : f.Lone e) (hs : f.Still g) (hbuses : g.buses.length = f.buses.length) :
    g.Lone e where
  present := (congrArg Fixture.present (hs.fixture e)).trans hl.present
  board := by
    rw [hs.board_engine, hs.boards]
    exact hl.board
  criterion := by
    rw [hs.board_engine, hs.criterion]
    exact hl.criterion
  loopback := by
    intro x hx
    rw [hs.gateways_engine] at hx
    obtain ⟨b, p, hconduit, hb, hheard, halone⟩ := hl.loopback x hx
    refine ⟨b, p, hs.conduit hconduit, hbuses ▸ hb, ?_, ?_⟩
    · rwa [Bus.socket, hs.sockets]
    · rwa [Bus.audience, hs.sockets]

theorem outlet?_of_sockets (hgateways : g.gateways = f.gateways)
    (hsockets : ∀ b, (g.bus b).sockets = (f.bus b).sockets) : g.outlet? = f.outlet? := by
  funext x
  simp only [outlet?, gateway, hgateways, Bus.socket, hsockets]
  rfl

theorem Still.outlets (hs : f.Still g) (hgateways : g.gateways = f.gateways) :
    g.outlets e = f.outlets e := by
  rw [Fabric.outlets, outlet?_of_sockets hgateways hs.sockets, hs.gateways_engine, Fabric.outlets]

/-! ## What has no consequences -/

/-- Messages have gone round from which nothing followed: logs have grown, sessions may have been
confirmed, and contacts have been seen. -/
structure Hush (f g : Fabric) : Prop extends f.Frame g where
  rest : g = { f with
    supply := g.supply, buses := g.buses, boards := g.boards, engines := g.engines }
  passes : ∀ d, (g.engine d).nextPass = (f.engine d).nextPass
  remotes : ∀ d, (g.engine d).directory.remotes = (f.engine d).directory.remotes
  seen : ∀ d s, ((f.engine d).directory.contact s).lastSeen ≤
    ((g.engine d).directory.contact s).lastSeen
  buses : g.buses.length = f.buses.length
  limit : ∀ b, (g.bus b).limit = (f.bus b).limit

namespace Hush

theorem refl (f : Fabric) : f.Hush f where
  toFrame := (Aside.refl f).frame
  rest := rfl
  passes := fun _ => rfl
  remotes := fun _ => rfl
  seen := fun _ _ => Nat.le_refl _
  buses := rfl
  limit := fun _ => rfl

theorem trans (hfg : f.Hush g) (hgh : g.Hush h) : f.Hush h where
  toFrame := hfg.toFrame.trans hgh.toFrame
  rest := by
    rw [hgh.rest, hfg.rest]
  passes := fun d => (hgh.passes d).trans (hfg.passes d)
  remotes := fun d => (hgh.remotes d).trans (hfg.remotes d)
  seen := fun d s => Nat.le_trans (hfg.seen d s) (hgh.seen d s)
  buses := hgh.buses.trans hfg.buses
  limit := fun b => (hgh.limit b).trans (hfg.limit b)

theorem outlet? (hg : f.Hush g) : g.outlet? = f.outlet? :=
  outlet?_of_sockets (by rw [hg.rest]) hg.sockets

theorem outlets (hg : f.Hush g) : g.outlets e = f.outlets e :=
  hg.toStill.outlets (by rw [hg.rest])

theorem lone (hg : f.Hush g) (hl : f.Lone e) : g.Lone e :=
  hl.of_still hg.toStill hg.buses

end Hush

theorem hush_fresh : f.Hush f.fresh.2 where
  toFrame := aside_fresh.frame
  rest := rfl
  passes := fun _ => rfl
  remotes := fun _ => rfl
  seen := fun _ _ => Nat.le_refl _
  buses := rfl
  limit := fun _ => rfl

theorem hush_record (b : BusId) (m : Message) : f.Hush (f.setBus b ((f.bus b).record m)) where
  toFrame := by
    have haside : f.Aside (f.setBus b ((f.bus b).record m)) := aside_setBus rfl
    exact haside.frame
  rest := rfl
  passes := fun _ => rfl
  remotes := fun _ => rfl
  seen := fun _ _ => Nat.le_refl _
  buses := List.length_set
  limit := by
    intro c
    by_cases hc : c = b
    · subst hc
      by_cases hlt : c < f.buses.length
      · rw [bus_setBus_self _ hlt]
        rfl
      · rw [setBus, List.set_eq_of_length_le (Nat.le_of_not_lt hlt)]
    · rw [bus_setBus_ne _ hc]

theorem hush_setBoard {c : BoardId} {board : Board ThreadId} (hb : (f.board c).2.Later board) :
    f.Hush (f.setBoard c board) where
  toFrame := (aside_setBoard hb).frame
  rest := rfl
  passes := fun _ => rfl
  remotes := fun _ => rfl
  seen := fun _ _ => Nat.le_refl _
  buses := rfl
  limit := fun _ => rfl

theorem hush_touch (e : EngineId) (i : Identity) (now : Nat) :
    f.Hush (f.setDirectory e ((f.engine e).directory.touch i now)) where
  toFrame := .setDirectory Directory.locals_touch
  rest := rfl
  passes := part_setEngine Engine.nextPass (by rfl)
  remotes := part_setEngine (·.directory.remotes) Directory.remotes_touch
  seen := by
    intro d s
    rcases @directory_setDirectory_cases f d e ((f.engine e).directory.touch i now) with
      hd | ⟨rfl, hd⟩
    · exact Nat.le_of_eq (by rw [hd])
    · rw [hd, Directory.touch]
      split
      · exact Directory.lastSeen_le_touchSlot _ _ _ _
      · exact Nat.le_refl _
  buses := rfl
  limit := fun _ => rfl

/-! ## The engine's own messages -/

/-- A message from an agent of an engine's own, which can be read again, and confirms at most
sessions on which nobody waits. -/
structure Own (f : Fabric) (e : EngineId) (m : Message) : Prop where
  carried : Bus.carried m = .ok m
  sender : (f.engine e).directory.isLocal m.sender = true
  unwaited : ∀ s ∈ (f.board (f.engine e).board).2.confirmedBy .echo m,
    ((f.board (f.engine e).board).2.session s).waiters = []

theorem Own.of_hush (hm : f.Own e m) (hg : f.Hush g) : g.Own e m where
  carried := hm.carried
  sender := by
    rw [Directory.isLocal, hg.locals]
    exact hm.sender
  unwaited := by
    intro s hs
    rw [hg.board_engine] at hs ⊢
    refine (hg.board _).waiters (hm.unwaited s ?_)
    rwa [Board.confirmedBy, (hg.board _).current] at hs

/-- An engine that receives a message of its own only notes it. -/
theorem receive_own (hl : f.Lone e) (hm : f.Own e m) : receive f e m =
    (f.inspect e m).setDirectory e ((f.engine e).directory.touch m.sender (f.engine e).clock) := by
  have hadmits : (f.engine e).admits m = false := by simp [Engine.admits, hm.sender]
  change receiveBy _ f e m = _
  rw [receiveBy, if_pos hl.present, Closed.processBy_eq, hadmits, setDirectory,
    Closed.engine_inspect]
  simp only [Bool.false_eq_true, if_false, Closed.engine_inspect]
  rfl

/-- A message that confirms only sessions on which nobody waits releases no thread. -/
theorem inspect_own (hl : f.Lone e) (hm : f.Own e m) : f.inspect e m =
    f.setBoard (f.engine e).board ((f.board (f.engine e).board).2.receive .echo m).1 := by
  have hreleased : ((f.board (f.engine e).board).2.receive .echo m).2 = [] :=
    Board.released_confirmAll_of_unwaited hm.unwaited
  unfold inspect
  simp only [hl.criterion, hreleased]
  rfl

theorem hush_inspect (hl : f.Lone e) (hm : f.Own e m) : f.Hush (f.inspect e m) := by
  rw [inspect_own hl hm]
  exact hush_setBoard (Board.later_receive _ m)

theorem hush_receive (hl : f.Lone e) (hm : f.Own e m) : f.Hush (receive f e m) := by
  rw [receive_own hl hm, ← @Closed.engine_inspect f e m]
  exact (hush_inspect hl hm).trans (hush_touch _ _ _)

theorem buses_receive (hl : f.Lone e) (hm : f.Own e m) : (receive f e m).buses = f.buses := by
  rw [receive_own hl hm, inspect_own hl hm]
  rfl

/-- What an engine hears of its own any number of times. -/
theorem hush_receiveAll (hl : f.Lone e) (hm : f.Own e m) (n : Nat) :
    f.Hush (f.receiveAll receive (List.replicate n (e, m))) ∧
      (f.receiveAll receive (List.replicate n (e, m))).buses = f.buses := by
  induction n generalizing f with
  | zero => exact ⟨.refl f, rfl⟩
  | succ n ih =>
    have hnow := hush_receive hl hm
    obtain ⟨hlater, hbuses⟩ := ih (hnow.lone hl) (hm.of_hush hnow)
    exact ⟨hnow.trans hlater, hbuses.trans (buses_receive hl hm)⟩

/-! ## Sending -/

theorem transmit_of_shut (hl : f.Lone e) (hx : x ∈ (f.engine e).gateways)
    (hshut : f.outlet? x = none) : (f.transmit receive x m).1 = f := by
  obtain ⟨b, p, hconduit, -⟩ := hl.loopback x hx
  obtain ⟨refusal, hrefusal⟩ : ∃ refusal, ((f.bus b).socket p).refusal? m = some refusal := by
    refine Option.ne_none_iff_exists'.1 fun hopen => ?_
    simp [outlet?, hconduit, Socket.refusal?_eq_none_iff.1 hopen] at hshut
  have hsame : f.setBus b (f.bus b) = f := by
    by_cases hb : b < f.buses.length
    · simp [setBus, bus, List.getD, hb]
    · simp [setBus, List.set_eq_of_length_le (Nat.le_of_not_lt hb)]
  simp only [transmit, hconduit, Bus.send_of_refusal hrefusal]
  exact hsame

/-- What a gateway takes is logged, and then heard by the engine itself and nobody else. -/
theorem transmit_of_open (hl : f.Lone e) (hm : f.Own e m) (hx : x ∈ (f.engine e).gateways)
    (hopen : f.outlet? x = some b) : b < f.buses.length ∧ ∃ n, (f.transmit receive x m).1 =
      (f.setBus b ((f.bus b).record m)).receiveAll receive (List.replicate (n + 1) (e, m)) := by
  obtain ⟨c, p, hconduit, hc, hheard, halone⟩ := hl.loopback x hx
  simp only [outlet?, hconduit] at hopen
  split at hopen
  · contradiction
  next hsocket =>
  obtain rfl := Option.some.inj hopen
  have hsocket : ((f.bus c).socket p).closed = false ∧ ((f.bus c).socket p).failing = false := by
    simpa using hsocket
  have hrefusal : ((f.bus c).socket p).refusal? m = none := Socket.refusal?_eq_none_iff.2 hsocket
  have hmem : e ∈ (f.bus c).audience := by
    have hlt : p < (f.bus c).sockets.length := by
      refine Nat.lt_of_not_le fun hle => ?_
      simp only [Bus.socket, List.getD, List.getElem?_eq_none hle, Option.getD_none] at hheard
      contradiction
    refine List.mem_flatMap.2 ⟨(f.bus c).socket p, ?_, ?_⟩
    · simp [Bus.socket, List.getD, hlt]
    · simpa [Socket.audience, hsocket] using hheard
  obtain ⟨n, hn⟩ : ∃ n, (f.bus c).audience = List.replicate (n + 1) e := by
    have hall := List.eq_replicate_of_mem halone
    cases hlength : (f.bus c).audience.length with
    | zero =>
      rw [List.length_eq_zero_iff.1 hlength] at hmem
      contradiction
    | succ n => exact ⟨n, by rw [hall, hlength]⟩
  refine ⟨hc, n, ?_⟩
  have hdeliveries : ((f.bus c).send p m).2.deliveries = List.replicate (n + 1) (e, m) := by
    rw [Closed.deliveries_send hrefusal hm.carried, hn, List.map_replicate]
  have hbus : ((f.bus c).send p m).1 = (f.bus c).record m := by rw [Bus.send_of_open hrefusal]
  simp only [transmit, hconduit, hdeliveries, hbus]

theorem hush_transmit (hl : f.Lone e) (hm : f.Own e m) (hx : x ∈ (f.engine e).gateways) :
    f.Hush (f.transmit receive x m).1 := by
  cases hout : f.outlet? x with
  | none =>
    rw [transmit_of_shut hl hx hout]
    exact .refl f
  | some b =>
    obtain ⟨-, n, htransmit⟩ := transmit_of_open hl hm hx hout
    have hrecord := hush_record (f := f) b m
    rw [htransmit]
    exact hrecord.trans (hush_receiveAll (hrecord.lone hl) (hm.of_hush hrecord) (n + 1)).1

/-- What has become of a bus that has logged one more message. -/
theorem log_record {c : BusId} (hb : b < f.buses.length)
    (hroom : (f.bus b).log.length + 1 ≤ (f.bus b).limit) :
    ((f.setBus b ((f.bus b).record m)).bus c).log =
      (f.bus c).log ++ if b = c then [m] else [] := by
  by_cases hc : b = c
  · subst hc
    have hdrop : (f.bus b).log.length + 1 - (f.bus b).limit = 0 := by omega
    rw [bus_setBus_self _ hb, Bus.record, hdrop, if_pos rfl, List.drop_zero]
  · rw [bus_setBus_ne _ (Ne.symm hc), if_neg hc, List.append_nil]

theorem log_transmit (hl : f.Lone e) (hm : f.Own e m) (hx : x ∈ (f.engine e).gateways)
    (hroom : ∀ b, f.outlet? x = some b → (f.bus b).log.length + 1 ≤ (f.bus b).limit) (b : BusId) :
    ((f.transmit receive x m).1.bus b).log =
      (f.bus b).log ++ if f.outlet? x = some b then [m] else [] := by
  cases hout : f.outlet? x with
  | none => simp [transmit_of_shut hl hx hout]
  | some c =>
    obtain ⟨hc, n, htransmit⟩ := transmit_of_open hl hm hx hout
    have hrecord := hush_record (f := f) c m
    have hbuses := (hush_receiveAll (hrecord.lone hl) (hm.of_hush hrecord) (n + 1)).2
    rw [htransmit, bus, hbuses, ← bus, log_record hc (hroom c hout)]
    simp

variable {uuid : Uuid} {recipient : Identity} {endpoints : EndpointSet}

/-- Announcements of an agent for which one session waits, on which nobody waits yet. -/
theorem own_presence (hw : f.Awaits e s i) (hlocal : (f.engine e).directory.isLocal i = true) :
    f.Own e (.presence uuid i recipient endpoints) where
  carried := Bus.carried_of_not_app fun _ => Payload.noConfusion
  sender := hlocal
  unwaited := by
    intro t ht
    obtain ⟨j, hj, hecho⟩ := Board.mem_confirmedBy.1 ht
    obtain rfl : i = j := by
      simpa [Criterion.echo, Message.presence, Message.withPayload, Message.plain, Payload.arrival,
        Payload.isPresent] using hecho
    obtain rfl := Option.some.inj (hw.current.symm.trans hj)
    exact hw.waiters

/-- Nobody takes a question for a confirmation. -/
theorem own_discovery (hlocal : (f.engine e).directory.isLocal i = true) :
    f.Own e (.discovery uuid i recipient) where
  carried := Bus.carried_of_not_app fun _ => Payload.noConfusion
  sender := hlocal
  unwaited := by
    intro t ht
    obtain ⟨j, -, hecho⟩ := Board.mem_confirmedBy.1 ht
    simp [Criterion.echo, Message.discovery, Message.plain] at hecho

/-- An announcement that is taken comes back and confirms the session of its agent. -/
theorem confirmed_transmit (hl : f.Lone e) (hw : f.Awaits e s i)
    (hlocal : (f.engine e).directory.isLocal i = true) (hx : x ∈ (f.engine e).gateways)
    (hopen : f.outlet? x = some b) :
    (f.transmit receive x (.presence uuid i recipient endpoints)).1.Confirmed e s := by
  have hm : f.Own e (.presence uuid i recipient endpoints) := own_presence hw hlocal
  obtain ⟨-, n, htransmit⟩ := transmit_of_open hl hm hx hopen
  rw [htransmit]
  -- The first of the listeners to be called is enough.
  have hrecord := hush_record (f := f) b (.presence uuid i recipient endpoints)
  have hl' := hrecord.lone hl
  have hm' := hm.of_hush hrecord
  have hnow := hush_receive hl' hm'
  have hconfirmed := confirmed_inspect (hw.of_frame hrecord.toFrame) hl'.criterion uuid recipient
    endpoints
  have hreceived : (receive (f.setBus b ((f.bus b).record (.presence uuid i recipient endpoints))) e
      (.presence uuid i recipient endpoints)).Confirmed e s := by
    rw [receive_own hl' hm', ← @Closed.engine_inspect
      (f.setBus b ((f.bus b).record (.presence uuid i recipient endpoints))) e
      (.presence uuid i recipient endpoints)]
    exact hconfirmed.of_frame (hush_touch _ _ _).toFrame
  exact hreceived.of_frame
    (hush_receiveAll (hnow.lone hl') (hm'.of_hush hnow) n).1.toFrame

/-! ## Sending through all gateways -/

theorem hush_transmitAll (hl : f.Lone e) (hm : f.Own e m)
    (hxs : ∀ x ∈ xs, x ∈ (f.engine e).gateways) : f.Hush (f.transmitAll receive m xs).1 := by
  induction xs generalizing f with
  | nil => exact .refl f
  | cons x xs ih =>
    have hnow := hush_transmit hl hm (hxs x List.mem_cons_self)
    refine hnow.trans (ih (hnow.lone hl) (hm.of_hush hnow) fun y hy => ?_)
    rw [hnow.gateways_engine]
    exact hxs y (List.mem_cons_of_mem _ hy)

/-- What no gateway takes changes nothing. -/
theorem transmitAll_of_shut (hl : f.Lone e) (hxs : ∀ x ∈ xs, x ∈ (f.engine e).gateways)
    (hshut : xs.filterMap f.outlet? = []) : (f.transmitAll receive m xs).1 = f := by
  induction xs with
  | nil => rfl
  | cons x xs ih =>
    have hall := List.filterMap_eq_nil_iff.1 hshut
    change ((f.transmit receive x m).1.transmitAll receive m xs).1 = f
    rw [transmit_of_shut hl (hxs x List.mem_cons_self) (hall x List.mem_cons_self)]
    exact ih (fun y hy => hxs y (List.mem_cons_of_mem _ hy))
      (List.filterMap_eq_nil_iff.2 fun y hy => hall y (List.mem_cons_of_mem _ hy))

/-- What an engine sends for an agent of its own is logged once for every gateway that takes it. -/
theorem log_transmitAll (hl : f.Lone e) (hm : f.Own e m)
    (hxs : ∀ x ∈ xs, x ∈ (f.engine e).gateways)
    (hroom : ∀ b, (f.bus b).log.length + (xs.filterMap f.outlet?).count b ≤ (f.bus b).limit)
    (b : BusId) : ((f.transmitAll receive m xs).1.bus b).log =
      (f.bus b).log ++ List.replicate ((xs.filterMap f.outlet?).count b) m := by
  induction xs generalizing f with
  | nil => simp [transmitAll]
  | cons x xs ih =>
    have hnow := hush_transmit hl hm (hxs x List.mem_cons_self)
    have hcount : ∀ c, ((x :: xs).filterMap f.outlet?).count c =
        (if f.outlet? x = some c then 1 else 0) + (xs.filterMap f.outlet?).count c := by
      intro c
      cases hout : f.outlet? x with
      | none => simp [List.filterMap_cons_none hout]
      | some d => simp [List.filterMap_cons_some hout, List.count_cons, Nat.add_comm]
    have hlog := log_transmit hl hm (hxs x List.mem_cons_self) fun c hc => by
      have hroomc := hroom c
      rw [hcount, if_pos hc] at hroomc
      omega
    have hlater := ih (hnow.lone hl) (hm.of_hush hnow)
      (fun y hy => by rw [hnow.gateways_engine]; exact hxs y (List.mem_cons_of_mem _ hy)) fun c => by
        have hroomc := hroom c
        rw [hcount] at hroomc
        rw [hlog, hnow.outlet?, hnow.limit, List.length_append]
        by_cases hc : f.outlet? x = some c
        · rw [if_pos hc] at hroomc
          rw [if_pos hc, List.length_singleton]
          omega
        · simpa [hc] using hroomc
    change (((f.transmit receive x m).1.transmitAll receive m xs).1.bus b).log = _
    rw [hlater, hlog, hnow.outlet?, hcount, List.append_assoc]
    split <;> simp [Nat.add_comm 1, List.replicate_succ]

theorem confirmed_transmitAll (hl : f.Lone e) (hw : f.Awaits e s i)
    (hlocal : (f.engine e).directory.isLocal i = true) (hxs : ∀ x ∈ xs, x ∈ (f.engine e).gateways)
    (hopen : xs.filterMap f.outlet? ≠ []) :
    (f.transmitAll receive (.presence uuid i recipient endpoints) xs).1.Confirmed e s := by
  induction xs with
  | nil => contradiction
  | cons x xs ih =>
    have hm : f.Own e (.presence uuid i recipient endpoints) := own_presence hw hlocal
    have hx := hxs x List.mem_cons_self
    have hrest : ∀ y ∈ xs, y ∈ (f.engine e).gateways := fun y hy => hxs y (List.mem_cons_of_mem _ hy)
    have hnow := hush_transmit hl hm hx
    change ((f.transmit receive x _).1.transmitAll receive _ xs).1.Confirmed e s
    cases hout : f.outlet? x with
    | none =>
      rw [transmit_of_shut hl hx hout]
      exact ih hrest (by rwa [List.filterMap_cons_none hout] at hopen)
    | some b =>
      refine (confirmed_transmit hl hw hlocal hx hout).of_frame
        (hush_transmitAll (hnow.lone hl) (hm.of_hush hnow) fun y hy => ?_).toFrame
      rw [hnow.gateways_engine]
      exact hrest y hy

/-! ## Sending through all gateways of an engine -/

theorem hush_send (hl : f.Lone e) (hm : f.Own e m) : f.Hush (f.send e m).1 :=
  hush_transmitAll hl hm fun _ => id

theorem send_of_shut (hl : f.Lone e) (hshut : f.outlets e = []) : (f.send e m).1 = f :=
  transmitAll_of_shut hl (fun _ => id) hshut

theorem log_send (hl : f.Lone e) (hm : f.Own e m)
    (hroom : ∀ b, (f.bus b).log.length + (f.outlets e).count b ≤ (f.bus b).limit) (b : BusId) :
    ((f.send e m).1.bus b).log =
      (f.bus b).log ++ List.replicate ((f.outlets e).count b) m :=
  log_transmitAll hl hm (fun _ => id) hroom b

theorem confirmed_send (hl : f.Lone e) (hw : f.Awaits e s i)
    (hlocal : (f.engine e).directory.isLocal i = true) (hopen : f.outlets e ≠ []) :
    (f.send e (.presence uuid i recipient endpoints)).1.Confirmed e s :=
  confirmed_transmitAll hl hw hlocal (fun _ => id) hopen

end Fabric

end Overlay
