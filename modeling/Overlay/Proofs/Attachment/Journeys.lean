import Overlay.Proofs.Attachment.Agreement
import Overlay.Proofs.Seclusion.Basic

/-!
# Whose responders are subscribed, and in which order

A responder answers for its agent and for one cloud, and that is the cloud to which it is subscribed
(`Fabric.Frank`). What is neither a call nor a shutdown leaves the identities of engines alone and
brings no responder (`Fabric.Placid`), as all traffic does and all that commands do at once; a journey
is a run in which that is so.

In which order agents answer is a matter of the order in which their responders were subscribed.
Both ends of a subscription are turns, so the order can be read off the turns (`roll`).
-/

namespace Overlay

namespace Fabric

variable {f g h : Fabric} {a : AgentId} {d e : EngineId} {m : Message}

/-! ## What brings no responder -/

/-- No engine has another identity than before, and no responder has come. -/
structure Placid (f g : Fabric) : Prop where
  identity : ∀ e, (g.engine e).identity = (f.engine e).identity
  responder : ∀ {e a cloud}, .responder a cloud ∈ (g.engine e).fanout.audience →
    .responder a cloud ∈ (f.engine e).fanout.audience

namespace Placid

theorem refl (f : Fabric) : f.Placid f := ⟨fun _ => rfl, id⟩

theorem trans (hfg : f.Placid g) (hgh : g.Placid h) : f.Placid h where
  identity := fun e => (hgh.identity e).trans (hfg.identity e)
  responder := fun hl => hfg.responder (hgh.responder hl)

/-- The engines are the same. -/
theorem of_eq (he : g.engines = f.engines) : f.Placid g := by
  have hengine : ∀ e, g.engine e = f.engine e := fun e => by rw [engine, he, engine]
  exact ⟨fun e => by rw [hengine], fun {e} _ _ hl => by rwa [hengine] at hl⟩

/-- An engine of the same identity, with no responder that it did not have. -/
theorem setEngine {x : Engine} (hidentity : x.identity = (f.engine e).identity)
    (hresponder : ∀ {a cloud}, .responder a cloud ∈ x.fanout.audience →
      .responder a cloud ∈ (f.engine e).fanout.audience) : f.Placid (f.setEngine e x) where
  identity := part_setEngine Engine.identity hidentity
  responder := by
    intro d a cloud hl
    rcases @engine_setEngine_cases f d e x with hd | ⟨rfl, hd⟩
    · rwa [hd] at hl
    · rw [hd] at hl
      exact hresponder hl

theorem setFanout {F : Fanout Hearer} (hresponder : ∀ {a cloud}, .responder a cloud ∈ F.audience →
    .responder a cloud ∈ (f.engine e).fanout.audience) : f.Placid (f.setFanout e F) :=
  .setEngine rfl hresponder

theorem setDirectory (D : Directory) : f.Placid (f.setDirectory e D) := .setEngine rfl id

/-- Traffic is placid, whatever the message. -/
theorem closed : Closed Placid fun _ _ => True where
  aside := fun h => of_eq h.engines
  trans := trans
  stable := fun _ _ => trivial
  carried := fun _ _ => trivial
  answer := fun _ _ _ => trivial
  note := fun _ _ => of_eq rfl
  queue := fun e _ => .setFanout fun hl => by rwa [audience_dispatch] at hl

theorem processing : Processing Placid fun _ _ => True where
  change := by
    intro f e m change now _ _ _
    cases change <;> exact .setEngine rfl id
  enquiry := fun _ _ => trivial
  touch := fun _ => .setEngine rfl id

theorem receive : Keeps Placid (fun _ _ => True) Fabric.receive := closed.reception processing _

theorem send (e : EngineId) (m : Message) : f.Placid (f.send e m).1 :=
  closed.sendBy receive trivial e

theorem process (e : EngineId) (m : Message) : f.Placid (f.process e m) :=
  closed.processBy processing receive f e m trivial

theorem inject (b : BusId) (m : Message) : f.Placid (f.inject b m).1 :=
  closed.receiveAll receive fun _ _ => trivial

theorem dispatch (m : Message) : f.Placid (f.dispatch e m) := closed.dispatchBy receive trivial e

/-- Listeners are gone, and no responder has come. -/
theorem mem_of_filter {F : Fanout Hearer} {keep : SubscriptionId × Hearer → Bool} {l : Hearer}
    (hl : l ∈ ({ F with listeners := F.listeners.filter keep } : Fanout Hearer).audience) :
    l ∈ F.audience := by
  obtain ⟨x, hx, rfl⟩ := List.mem_map.1 hl
  exact List.mem_map.2 ⟨x, (List.mem_filter.1 hx).1, rfl⟩

theorem listen (name : String) : f.Placid (f.listen e name) := by
  refine .setFanout fun {a cloud} hl => ?_
  have hsubscribed := mem_of_filter (F := ((f.engine e).fanout.subscribe (.recorder name)).1) hl
  simpa [Fanout.audience, Fanout.subscribe] using hsubscribed

theorem unlisten (name : String) : f.Placid (f.unlisten e name) := .setFanout mem_of_filter

theorem schedulePass (due : Nat) : f.Placid (f.schedulePass e due) := by
  have hengine : f.Placid (f.setEngine e { f.engine e with nextPass := some due }) :=
    setEngine rfl id
  exact hengine.trans (.of_eq rfl)

theorem stopTasks : f.Placid (f.stopTasks e) := by
  have hengine : f.Placid (f.setEngine e
      { f.engine e with nextPass := none, fanout := (f.engine e).fanout.stop }) :=
    setEngine rfl id
  exact hengine.trans (.of_eq rfl)

theorem shutdown : f.Placid (f.shutdown e) := by
  obtain ⟨buses, h⟩ := @closeGateways_eq (f.stopTasks e) ((f.stopTasks e).engine e).gateways
  have hclosed : (f.stopTasks e).Placid { f.stopTasks e with buses := buses } := of_eq rfl
  simp only [Fabric.shutdown, h]
  exact (stopTasks.trans hclosed).trans (setDirectory _)

theorem fresh : f.Placid f.fresh.2 := of_eq rfl

theorem evictFrom (contact : Identity) (s : Slot) : f.Placid (f.evictFrom e contact s) := by
  unfold Fabric.evictFrom
  cases hx : (f.engine e).evicted? contact s with
  | none => exact refl f
  | some x =>
    have hgone : f.Placid (f.setEngine e x) := by
      unfold Engine.evicted? at hx
      split at hx
      · obtain rfl := Option.some.inj hx
        exact setEngine rfl id
      · contradiction
    exact hgone.trans (fresh.trans (dispatch _))

theorem probe : f.Placid (f.probe e) := by
  unfold Fabric.probe
  induction (f.engine e).directory.remotes.toList generalizing f with
  | nil => exact refl f
  | cons contact contacts ih =>
    have hcontact : f.Placid (probeContact e f contact) := by
      unfold probeContact
      split
      · exact (fresh.trans (send _ _)).trans (evictFrom _ _)
      · exact refl f
    exact hcontact.trans ih

/-- A liveness pass that is due. -/
theorem tick : f.Placid (f.tick e) := by
  unfold Fabric.tick
  split
  · exact refl f
  · exact probe.trans (schedulePass _)

/-- The worker of an engine delivers what is queued. -/
theorem work : f.Placid (f.work e) := by
  unfold Fabric.work
  split
  · exact refl f
  · next m audience fanout htake =>
    have htaken : fanout.audience = (f.engine e).fanout.audience := by
      unfold Fanout.take? at htake
      split at htake
      · contradiction
      · cases htake
        rfl
    have hdeliver : f.Placid ((f.setFanout e fanout).deliver Fabric.receive m audience) :=
      (setFanout fun hl => by rwa [htaken] at hl).trans (closed.deliver receive trivial audience)
    simp only
    split
    · exact hdeliver
    · exact hdeliver.trans (of_eq rfl)

/-- Whatever is over at once and does not make an agent leave. -/
theorem carryOut {c : Command} (hleave : ∀ a, c ≠ .leave a) : f.Placid (f.carryOut c).1 := by
  cases c with
  | leave a => exact absurd rfl (hleave a)
  | sendFrom a m =>
    simp only [Fabric.carryOut, settleWith, sendFrom]
    split
    · next heq =>
      split at heq
      · cases heq
        exact send _ _
      · contradiction
    · exact refl f
  | send e m => exact send e m
  | registerEndpoint a endpoint => exact of_eq rfl
  | inject b m =>
    have h : f.Placid (f.inject b m).1 := inject b m
    simp only [Fabric.carryOut]
    split <;> next heq => rwa [heq] at h
  | process e m => exact process e m
  | setClock e now => exact setEngine rfl id
  | probe e => exact probe
  | shutdown e => exact shutdown
  | drop e => exact stopTasks.trans (setEngine rfl id)
  | listen e name => exact listen name
  | unlisten e name => exact unlisten name
  | setFailing x failing =>
    simp only [Fabric.carryOut, Fabric.setFailing]
    split <;> exact of_eq rfl
  | setAnswer x answer =>
    simp only [Fabric.carryOut, Fabric.setAnswer]
    split <;> exact of_eq rfl
  | close x =>
    simp only [Fabric.carryOut, closeGateway]
    split <;> exact of_eq rfl
  | contact e i => exact refl f
  | describe e => exact refl f
  | join a e cutoff => exact refl f
  | rest millis => exact refl f

end Placid

/-- Every responder answers for the cloud to which it is subscribed. -/
def Frank (f : Fabric) : Prop :=
  ∀ e a cloud, .responder a cloud ∈ (f.engine e).fanout.audience → cloud = (f.engine e).identity

theorem Frank.placid (hf : f.Frank) (h : f.Placid g) : g.Frank :=
  fun e a cloud hl => (hf e a cloud (h.responder hl)).trans (h.identity e).symm

/-- A new responder is told for which cloud it answers. -/
theorem Frank.subscribe (hf : f.Frank) : (f.setFanout e
    ((f.engine e).fanout.subscribe (.responder a (f.engine e).identity)).1).Frank := by
  intro d b cloud hl
  rcases @engine_setEngine_cases f d e { f.engine e with
    fanout := ((f.engine e).fanout.subscribe (.responder a (f.engine e).identity)).1 } with
    hd | ⟨rfl, hd⟩
  · rw [Fabric.setFanout, hd] at hl ⊢
    exact hf d b cloud hl
  · rw [Fabric.setFanout, hd] at hl ⊢
    simp only [Fanout.audience, Fanout.subscribe, List.map_append, List.mem_append] at hl
    rcases hl with hl | hl
    · exact hf d b cloud hl
    · cases List.mem_singleton.1 hl
      rfl

theorem Vacant.frank (hf : f.Vacant) : f.Frank := by
  intro e a cloud hl
  obtain ⟨⟨r, _⟩, hmem, rfl⟩ := List.mem_map.1 hl
  have hresponder : (r, a) ∈ (f.engine e).fanout.responders :=
    List.mem_filterMap.2 ⟨_, hmem, rfl⟩
  rw [hf.responders] at hresponder
  exact absurd hresponder List.not_mem_nil

end Fabric

namespace Scene

variable {s s' s'' : Scene} {a : AgentId} {c e : EngineId} {r r' : SubscriptionId} {t : Turn}
  {ts ts' : List Turn} {f : Fabric}

/-! ## Journeys -/

/-- A run in which what is neither a call nor a shutdown is placid. -/
inductive Journey (s : Scene) : List Turn → Scene → Prop
  | nil : Journey s [] s
  | cons {s' s'' : Scene} {t : Turn} {ts : List Turn} (hjourney : Journey s ts s')
      (hstep : Step s' t s'') (hplacid : t = .other → s'.fabric.Placid s''.fabric) :
      Journey s (t :: ts) s''

theorem Journey.run (hjourney : Journey s ts s') : Run s ts s' := by
  induction hjourney with
  | nil => exact .nil
  | cons _ hstep _ ih => exact ih.cons hstep

/-- A run of calls and shutdowns is a journey. -/
theorem Run.journey (hrun : Run s ts s') (hother : .other ∉ ts) : Journey s ts s' := by
  induction hrun with
  | nil => exact .nil
  | cons _ hstep ih =>
    simp only [List.mem_cons, not_or] at hother
    exact (ih hother.2).cons hstep fun ht => absurd ht.symm hother.1

/-- No turn brings a responder but the one in which it is subscribed. -/
theorem placid_step (hstep : Step s t s') (hsubscribe : ∀ a e, t ≠ .act .subscribe a e)
    (hplacid : t = .other → s.fabric.Placid s'.fabric) : s.fabric.Placid s'.fabric := by
  cases hstep with
  | @subscribe k a e => exact absurd rfl (hsubscribe a e)
  | register => exact .setDirectory _
  | abandon => exact .setDirectory _
  | unregister => exact .setDirectory _
  | unsubscribe => exact .setFanout Fabric.Placid.mem_of_filter
  | shutdown e => exact .shutdown
  | other => exact hplacid rfl
  | _ => exact .of_eq rfl

theorem frank_step (hs : s.fabric.Frank) (hstep : Step s t s')
    (hplacid : t = .other → s.fabric.Placid s'.fabric) : s'.fabric.Frank := by
  by_cases hsubscribe : ∃ a e, t = .act .subscribe a e
  · obtain ⟨a, e, rfl⟩ := hsubscribe
    cases hstep with
    | subscribe hcall => exact hs.subscribe
  · exact hs.placid (placid_step hstep (fun a e ht => hsubscribe ⟨a, e, ht⟩) hplacid)

theorem Journey.frank (hs : s.fabric.Frank) (hjourney : Journey s ts s') : s'.fabric.Frank := by
  induction hjourney with
  | nil => exact hs
  | cons _ hstep hplacid ih => exact frank_step ih hstep hplacid

/-! ## The order of responders -/

/-- What becomes of the order of the responders of an engine in a turn: a new one comes last. -/
def enlist (e : EngineId) : Turn → List AgentId → List AgentId
  | .act .subscribe a d, roll => if d = e then roll ++ [a] else roll
  | .act .unsubscribe a d, roll => if d = e then roll.filter (· ≠ a) else roll
  | _, roll => roll

/-- Without a subscription nobody is enlisted. -/
theorem enlist_sublist (ht : ∀ a, t ≠ .act .subscribe a e) (as : List AgentId) :
    (enlist e t as).Sublist as := by
  cases t with
  | act x a d =>
    cases x with
    | subscribe =>
      have hd : d ≠ e := by
        rintro rfl
        exact ht a rfl
      simp [enlist, hd]
    | unsubscribe =>
      simp only [enlist]
      split
      · exact List.filter_sublist
      · exact List.Sublist.refl as
    | _ => exact List.Sublist.refl as
  | _ => exact List.Sublist.refl as

/-- The agents whose responders are subscribed to an engine, in the order in which that was done in
their latest joins. -/
def roll (e : EngineId) (ts : List Turn) : List AgentId :=
  ts.foldr (enlist e) []

/-- An agent has one responder at an engine. -/
theorem Tidy.responder_eq (h : s.Tidy c) (hr : (r, a) ∈ s.responders c)
    (hr' : (r', a) ∈ s.responders c) : r = r' := by
  obtain ⟨p, hp⟩ := h.responders.1 hr
  obtain ⟨q, hq⟩ := h.responders.1 hr'
  obtain rfl := h.single hp hq
  rw [hp] at hq
  cases hq
  rfl

theorem Tidy.nodup_agents (h : s.Tidy c) : ((s.responders c).map Prod.snd).Nodup := by
  have hnumbers : (s.responders c).Pairwise fun x y => x.1 ≠ y.1 := List.pairwise_map.1 h.nodup
  refine List.pairwise_map.2 (hnumbers.imp_of_mem fun {x y} hx hy hne hxy => hne ?_)
  exact h.responder_eq hx (hxy ▸ hy)

/-- When a responder is unsubscribed its agent is gone from the list, and no other one. -/
theorem Tidy.agents_filter (h : s.Tidy c) (hr : (r, a) ∈ s.responders c) :
    ((s.responders c).filter (·.1 ≠ r)).map Prod.snd =
      ((s.responders c).map Prod.snd).filter (· ≠ a) := by
  rw [List.filter_map]
  refine congrArg (List.map Prod.snd) (List.filter_congr fun x hx => ?_)
  obtain ⟨q, b⟩ := x
  have hiff : q = r ↔ b = a := by
    constructor
    · rintro rfl
      exact h.eq_of_responder hx hr
    · rintro rfl
      exact h.responder_eq hx hr
  simp [hiff]

theorem agents_step (h : s.Tidy c) (ho : s.Orderly) (hstep : Step s t s') (ht : t ≠ .shutdown c) :
    (s'.responders c).map Prod.snd = enlist c t ((s.responders c).map Prod.snd) := by
  cases hstep with
  | register => rw [responders_setDirectory]; rfl
  | abandon => rw [responders_setDirectory]; rfl
  | unregister => rw [Fabric.unregister, responders_setDirectory]; rfl
  | @subscribe k a e hcall =>
    by_cases he : e = c
    · subst he
      have hlt : e < s.fabric.engines.length := ho.engine (k := k) (by rw [hcall]; rfl)
      rw [enlist, if_pos rfl, responders, fanout_setFanout_self hlt, Fanout.responders_subscribe,
        List.map_append]
      rfl
    · rw [enlist, if_neg he, responders, move, Fabric.setFanout,
        Fabric.engine_setEngine_ne _ (Ne.symm he), responders]
  | @unsubscribe k a e r hcall =>
    by_cases he : e = c
    · subst he
      have hp : s.tie? (.call k) = some ⟨a, e, some r⟩ := by rw [tie?_call, hcall]; rfl
      rw [enlist, if_pos rfl, ← h.agents_filter (h.responders.2 ⟨_, hp⟩), responders,
        fanout_setFanout_self (Fabric.lt_of_local? (h.local? hp)), Fanout.responders_unsubscribe,
        responders]
    · rw [enlist, if_neg he, responders, move, Fabric.setFanout,
        Fabric.engine_setEngine_ne _ (Ne.symm he), responders]
  | shutdown e =>
    rw [responders, Fabric.engine_shutdown_ne (d := c) (e := e) fun hc => ht (by rw [hc]), responders]
    rfl
  | other haloof => rw [responders, haloof.responders, responders]; rfl
  | _ => rfl

/-- **The responders of an engine stand in the order of the roll.** -/
theorem agents_eq_roll (hf : f.Vacant) (hrun : Run ⟨f, []⟩ ts s) (hup : .shutdown c ∉ ts) :
    (s.responders c).map Prod.snd = roll c ts := by
  induction hrun with
  | nil => simp [responders, hf.responders, roll]
  | @cons s' s'' t ts hrun hstep ih =>
    simp only [List.mem_cons, not_or] at hup
    have htidy := (tidy_of_vacant hf c).run (orderly_of_vacant hf) hrun hup.2
    rw [agents_step htidy ((orderly_of_vacant hf).run hrun) hstep fun ht => hup.1 ht.symm, ih hup.2]
    rfl

/-- Nobody is on the roll twice. -/
theorem nodup_roll (hf : f.Vacant) (hrun : Run ⟨f, []⟩ ts s) (hup : .shutdown c ∉ ts) :
    (roll c ts).Nodup := by
  rw [← agents_eq_roll hf hrun hup]
  exact ((tidy_of_vacant hf c).run (orderly_of_vacant hf) hrun hup).nodup_agents

/-- How long ago the responder of an agent was subscribed to an engine, in turns. -/
def since (e : EngineId) (a : AgentId) (ts : List Turn) : Nat :=
  ts.idxOf (.act .subscribe a e)

theorem since_cons (h : t ≠ .act .subscribe a e) : since e a (t :: ts) = since e a ts + 1 :=
  List.idxOf_cons_ne ts h

/-- **The roll is in the order of the latest joins.** -/
theorem roll_ordered (hf : f.Vacant) (hrun : Run ⟨f, []⟩ ts s) (hup : .shutdown c ∉ ts) :
    (roll c ts).Pairwise fun a b => since c b ts < since c a ts := by
  induction hrun with
  | nil => exact .nil
  | @cons s' s'' t ts hrun hstep ih =>
    have hnodup := nodup_roll hf (hrun.cons hstep) hup
    simp only [List.mem_cons, not_or] at hup
    have hbefore := ih hup.2
    have hstill : ∀ {as : List AgentId}, (∀ a ∈ as, t ≠ .act .subscribe a c) →
        as.Pairwise (fun a b => since c b ts < since c a ts) →
        as.Pairwise fun a b => since c b (t :: ts) < since c a (t :: ts) := by
      intro as has hpairs
      refine hpairs.imp_of_mem fun {a b} ha hb hab => ?_
      rw [since_cons (has a ha), since_cons (has b hb)]
      exact Nat.succ_lt_succ hab
    by_cases ht : ∃ b, t = .act .subscribe b c
    · obtain ⟨b, rfl⟩ := ht
      have hroll : roll c (.act .subscribe b c :: ts) = roll c ts ++ [b] := if_pos rfl
      rw [hroll] at hnodup ⊢
      have hnew : ∀ a ∈ roll c ts, Turn.act .subscribe b c ≠ .act .subscribe a c := by
        rintro a ha h
        cases h
        exact List.disjoint_of_nodup_append hnodup ha (List.mem_singleton_self b)
      refine List.pairwise_append.2 ⟨hstill hnew hbefore, List.pairwise_singleton _ b, ?_⟩
      intro a ha x hx
      obtain rfl := List.mem_singleton.1 hx
      rw [since_cons (hnew a ha), since, List.idxOf_cons_self]
      exact Nat.succ_pos _
    · have hsub : (roll c (t :: ts)).Sublist (roll c ts) :=
        enlist_sublist (fun b hb => ht ⟨b, hb⟩) _
      exact hstill (fun a _ hta => ht ⟨a, hta⟩) (hbefore.sublist hsub)

end Scene

end Overlay
