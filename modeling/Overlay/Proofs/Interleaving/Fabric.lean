import Overlay.Fabric.Schedule
import Overlay.Proofs.Interleaving.Basic
import Overlay.Proofs.Traffic

/-!
# The fabric as a run of each of its engines

Whatever happens in a fabric is, for each engine, a run of the moves of `Overlay.Proofs.Interleaving`:
so what holds after every run holds in every fabric. In a fabric nothing waits while a message is on
its way, so calls and passes that begin are over by then; they only nest.
-/

namespace Overlay

namespace Moment

variable {x y z : Engine} {calls : List Call} {passes passes' passes'' : List Pass}

/-- A run leads from one engine to another. Calls and passes that begin on the way are over in the
end, and passes that had begun before have come as far as it is said. -/
def Spans (x : Engine) (calls : List Call) (passes : List Pass) (y : Engine)
    (passes' : List Pass) : Prop :=
  ∃ moves more others,
    run? ⟨x, calls, passes⟩ moves = some ⟨y, calls ++ more, passes' ++ others⟩ ∧
    (∀ c ∈ more, c.ended ≠ none) ∧ ∀ p ∈ others, p.asked = none ∧ p.rest = []

theorem Spans.refl : Spans x calls passes x passes :=
  ⟨[], [], [], by rw [List.append_nil, List.append_nil]; rfl, by simp, by simp⟩

theorem Spans.of_move {mv : Move}
    (hm : move? ⟨x, calls, passes⟩ mv = some ⟨y, calls, passes'⟩) :
    Spans x calls passes y passes' := by
  refine ⟨[mv], [], [], ?_, by simp, by simp⟩
  rw [run?, hm, List.append_nil, List.append_nil]
  rfl

theorem Spans.trans (h : Spans x calls passes y passes')
    (h' : ∀ more others, Spans y (calls ++ more) (passes' ++ others) z (passes'' ++ others)) :
    Spans x calls passes z passes'' := by
  obtain ⟨moves, more, others, hrun, hcalls, hpasses⟩ := h
  obtain ⟨moves', more', others', hrun', hcalls', hpasses'⟩ := h' more others
  refine ⟨moves ++ moves', more ++ more', others ++ others', ?_, ?_, ?_⟩
  · rw [run?_append, hrun, Option.bind_some, hrun', List.append_assoc, List.append_assoc]
  · intro c hc
    exact (List.mem_append.1 hc).elim (hcalls c) (hcalls' c)
  · intro p hp
    exact (List.mem_append.1 hp).elim (hpasses p) (hpasses' p)

/-- A pass is found in its place, whatever has begun since. -/
theorem getElem?_set_append {p : Nat} {q q' : Pass} (others : List Pass)
    (hp : passes[p]? = some q) : (passes.set p q' ++ others)[p]? = some q' := by
  have hlt : p < passes.length := (List.getElem?_eq_some_iff.1 hp).1
  rw [List.getElem?_append_left (by rwa [List.length_set])]
  simp [hlt]

theorem set_set_append {p : Nat} {q q' q'' : Pass} {others : List Pass}
    (hp : passes[p]? = some q) :
    (passes.set p q' ++ others).set p q'' = passes.set p q'' ++ others := by
  have hlt : p < passes.length := (List.getElem?_eq_some_iff.1 hp).1
  rw [List.set_append_left _ _ (by rwa [List.length_set]), List.set_set]

end Moment

namespace Fabric

open Moment (Spans)

/-- What happened between two fabrics is a run of an engine's moves. The calls and passes that have
begun since are over. -/
def Traces (e : EngineId) (f g : Fabric) : Prop :=
  g.engines.length = f.engines.length ∧
    (e < f.engines.length → ∀ calls passes, Spans (f.engine e) calls passes (g.engine e) passes)

variable {f g h : Fabric} {d e : EngineId} {m : Message} {receive : Reception}

theorem Traces.of_engine (hlen : g.engines.length = f.engines.length)
    (he : g.engine e = f.engine e) : Traces e f g :=
  ⟨hlen, fun _ _ _ => he ▸ .refl⟩

theorem Traces.of_engines (he : g.engines = f.engines) : Traces e f g :=
  .of_engine (by rw [he]) (by rw [engine, he, engine])

theorem Traces.trans (hfg : Traces e f g) (hgh : Traces e g h) : Traces e f h :=
  ⟨hgh.1.trans hfg.1, fun he calls passes =>
    (hfg.2 he calls passes).trans fun _ _ => hgh.2 (hfg.1 ▸ he) _ _⟩

/-- What becomes of an engine by one move. -/
theorem Traces.of_move {x : Engine} (mv : Move)
    (hmv : ∀ calls passes, Moment.move? ⟨f.engine d, calls, passes⟩ mv = some ⟨x, calls, passes⟩) :
    Traces e f (f.setEngine d x) := by
  by_cases hde : d = e
  · subst hde
    refine ⟨length_setEngine x, fun hd calls passes => ?_⟩
    rw [engine_setEngine_self x hd]
    exact .of_move (hmv calls passes)
  · exact .of_engine (length_setEngine x) (engine_setEngine_ne x (Ne.symm hde))

/-- Listeners, the queue, the time of the next pass and the way in are tended by a move. -/
theorem Traces.of_tend {fanout : Fanout Hearer} {nextPass : Option Nat} {present : Bool} :
    Traces e f (f.setEngine d
      { f.engine d with fanout := fanout, nextPass := nextPass, present := present }) :=
  .of_move (.tend fanout nextPass present) fun _ _ => rfl

theorem traces_setFanout (fanout : Fanout Hearer) : Traces e f (f.setFanout d fanout) :=
  Traces.of_tend

theorem closed_traces : Closed (Traces e) fun _ _ => True where
  aside := fun h => .of_engines h.engines
  trans := .trans
  stable := fun _ _ => trivial
  carried := fun _ _ => trivial
  answer := fun _ _ _ => trivial
  note := fun _ _ => .of_engines rfl
  queue := fun _ _ => traces_setFanout _

theorem traces_setEngine_ne (hde : d ≠ e) (x : Engine) : Traces e f (f.setEngine d x) :=
  .of_engine (length_setEngine x) (engine_setEngine_ne x (Ne.symm hde))

/-! ## Messages -/

/-- What follows from a message at another engine is a run of this one. -/
theorem traces_react (hreceive : Keeps (Traces e) (fun _ _ => True) receive) (now : Nat)
    (hde : d ≠ e) : Traces e f (f.react receive d m now) := by
  unfold react
  split
  · exact closed_traces.refl f
  · exact traces_setEngine_ne hde _
  · exact .trans (closed_traces.aside aside_fresh) (closed_traces.sendBy hreceive trivial d)
  · exact closed_traces.dispatchBy hreceive trivial d

/-- A call that has to wait: while it does, what follows from its message happens. -/
theorem traces_of_lingers (hreceive : Keeps (Traces e) (fun _ _ => True) receive)
    (hl : (f.engine e).lingers m = true) :
    Traces e f (
      let g := f.react receive e m (f.engine e).clock
      g.setEngine e ((g.engine e).touched m.sender (f.engine e).clock)) := by
  have hreact : Traces e f (f.react receive e m (f.engine e).clock) := by
    unfold Engine.lingers at hl
    rw [Bool.and_eq_true] at hl
    unfold react
    split at hl
    · next hr =>
      rw [hr]
      exact .trans (closed_traces.aside aside_fresh) (closed_traces.sendBy hreceive trivial e)
    · next hr =>
      rw [hr]
      exact closed_traces.dispatchBy hreceive trivial e
    · simp at hl
  generalize f.react receive e m (f.engine e).clock = g at hreact
  refine ⟨(length_setEngine _).trans hreact.1, fun he calls passes => ?_⟩
  obtain ⟨moves, calls', passes', hrun, hcalls, hpasses⟩ :=
    hreact.2 he (calls ++ [⟨m.sender, (f.engine e).clock, none⟩]) passes
  refine ⟨.receive m :: moves ++ [.conclude calls.length],
    ⟨m.sender, (f.engine e).clock, some ((g.engine e).directory.remote? m.sender)⟩ :: calls', passes',
    ?_, ?_, hpasses⟩
  · have hbegin : Moment.move? ⟨f.engine e, calls, passes⟩ (.receive m) =
        some ⟨f.engine e, calls ++ [⟨m.sender, (f.engine e).clock, none⟩], passes⟩ := by
      simp [Moment.move?, Moment.receive, hl]
    rw [List.cons_append, Moment.run?, hbegin, Option.bind_some, Moment.run?_append, hrun,
      Option.bind_some, engine_setEngine_self _ (hreact.1 ▸ he)]
    simp [Moment.run?, Moment.move?, List.append_assoc]
  · intro c hc
    rcases List.mem_cons.1 hc with rfl | hc
    · simp
    · exact hcalls c hc

theorem react_of_not_lingers (hl : (f.engine e).lingers m = false) :
    (if (f.engine e).admits m then f.react receive e m (f.engine e).clock else f) =
      f.setEngine e ((f.engine e).informed m) := by
  unfold Engine.informed react
  unfold Engine.lingers at hl
  by_cases hadm : (f.engine e).admits m = true
  · rw [if_pos hadm, if_pos hadm]
    rw [hadm, Bool.true_and] at hl
    cases hr : (f.engine e).reaction m with
    | nothing => exact (setEngine_engine e).symm
    | membership change => rfl
    | enquiry => simp [hr] at hl
    | dispatch => simp [hr] at hl
  · rw [if_neg hadm, if_neg hadm, setEngine_engine]

/-- A call that does not have to wait is a single move. -/
theorem traces_of_not_lingers (hl : (f.engine e).lingers m = false) :
    Traces e f (
      let g := if (f.engine e).admits m then f.react receive e m (f.engine e).clock else f
      g.setEngine e ((g.engine e).touched m.sender (f.engine e).clock)) := by
  rw [react_of_not_lingers hl]
  refine ⟨by simp [length_setEngine], fun he calls passes => ?_⟩
  have he' : e < (f.setEngine e ((f.engine e).informed m)).engines.length := by
    rwa [length_setEngine]
  refine ⟨[.receive m], [⟨m.sender, (f.engine e).clock,
    some (((f.engine e).informed m).directory.remote? m.sender)⟩], [], ?_, by simp, by simp⟩
  simp only [engine_setEngine_self _ he, engine_setEngine_self _ he']
  simp [Moment.run?, Moment.move?, Moment.receive, hl]

theorem keeps_traces_processBy (hreceive : Keeps (Traces e) (fun _ _ => True) receive) :
    Keeps (Traces e) (fun _ _ => True) (processBy receive) := by
  intro f d m _
  have hinspect : Traces e f (f.inspect d m) := closed_traces.aside aside_inspect
  refine hinspect.trans ?_
  unfold processBy
  generalize f.inspect d m = f
  by_cases hde : d = e
  · subst hde
    cases hl : (f.engine d).lingers m with
    | true =>
      have hadm : (f.engine d).admits m = true := by
        unfold Engine.lingers at hl
        exact (Bool.and_eq_true _ _ ▸ hl).1
      simp only [hadm, if_true]
      exact traces_of_lingers hreceive hl
    | false => exact traces_of_not_lingers hl
  · refine Traces.trans ?_ (traces_setEngine_ne hde _)
    split
    · exact traces_react hreceive _ hde
    · exact closed_traces.refl f

theorem keeps_traces_receiveBy (hreceive : Keeps (Traces e) (fun _ _ => True) receive) :
    Keeps (Traces e) (fun _ _ => True) (receiveBy receive) := by
  intro f d m _
  unfold receiveBy
  split
  · exact keeps_traces_processBy hreceive f d m trivial
  · exact closed_traces.refl f

theorem keeps_traces_receive : Keeps (Traces e) (fun _ _ => True) Fabric.receive :=
  Keeps.reception (fun f _ _ _ => closed_traces.refl f) (fun _ => keeps_traces_receiveBy) levels

/-- **A message that an engine processes is a run of each engine.** -/
theorem traces_process : Traces e f (f.process d m) :=
  keeps_traces_processBy keeps_traces_receive f d m trivial

theorem traces_send : Traces e f (f.send d m).1 :=
  closed_traces.sendBy keeps_traces_receive trivial d

theorem traces_dispatch : Traces e f (f.dispatch d m) :=
  closed_traces.dispatchBy keeps_traces_receive trivial d

theorem traces_inject {b : BusId} : Traces e f (f.inject b m).1 :=
  closed_traces.receiveAll keeps_traces_receive fun _ _ => trivial

/-! ## Liveness passes -/

theorem traces_pingFrom {contact : Identity} : Traces e f (f.pingFrom d contact) :=
  .trans (closed_traces.aside aside_fresh) traces_send

theorem traces_evictFrom (hde : d ≠ e) {contact : Identity} {s : Slot} :
    Traces e f (f.evictFrom d contact s) := by
  unfold evictFrom
  split
  · next x _ =>
    have hfault : Traces e (f.setEngine d x) (f.setEngine d x).fresh.2 := closed_traces.aside aside_fresh
    exact .trans (traces_setEngine_ne hde x) (.trans hfault traces_dispatch)
  · exact closed_traces.refl f

theorem traces_probeContact (hde : d ≠ e) (c : Identity × Slot) :
    Traces e f (probeContact d f c) := by
  unfold probeContact
  split
  · exact .trans traces_pingFrom (traces_evictFrom hde)
  · exact closed_traces.refl f

theorem length_probeContact (c : Identity × Slot) :
    (probeContact e f c).engines.length = f.engines.length := by
  have hping := (@traces_pingFrom f e e c.1).1
  unfold probeContact evictFrom
  split
  · split
    · next x _ =>
      have hdispatch := (@traces_dispatch ((f.pingFrom e c.1).setEngine e x).fresh.2 e e
        (.fault ((f.pingFrom e c.1).setEngine e x).fresh.1 x.identity c.1)).1
      exact hdispatch.trans ((length_setEngine x).trans hping)
    · exact hping
  · rfl

/-- What a pass does after its ping, by the move that looks at the contact again. -/
theorem spans_evictFrom (he : e < f.engines.length) {c : Identity × Slot} {calls : List Call}
    {passes : List Pass} {p : Nat} {rest : List (Identity × Slot)}
    (hp : passes[p]? = some ⟨some c, rest⟩) :
    Spans (f.engine e) calls passes ((f.evictFrom e c.1 c.2).engine e)
      (passes.set p ⟨none, rest⟩) := by
  have hresolve : Moment.move? ⟨f.engine e, calls, passes⟩ (.resolve p) =
      some ⟨((f.engine e).evicted? c.1 c.2).getD (f.engine e), calls,
        passes.set p ⟨none, rest⟩⟩ := by
    simp [Moment.move?, hp]
  unfold evictFrom
  cases hx : (f.engine e).evicted? c.1 c.2 with
  | none =>
    rw [hx, Option.getD_none] at hresolve
    exact .of_move hresolve
  | some x =>
    rw [hx, Option.getD_some] at hresolve
    have hfault : Traces e (f.setEngine e x) ((f.setEngine e x).fresh.2.dispatch e
        (.fault (f.setEngine e x).fresh.1 x.identity c.1)) :=
      .trans (closed_traces.aside aside_fresh) traces_dispatch
    refine (Spans.of_move hresolve).trans fun more others => ?_
    have hspans := hfault.2 (by rwa [length_setEngine]) (calls ++ more)
      (passes.set p ⟨none, rest⟩ ++ others)
    rwa [engine_setEngine_self x he] at hspans

/-- What a pass does with one contact. -/
theorem spans_probeContact (he : e < f.engines.length) {c : Identity × Slot} {calls : List Call}
    {passes : List Pass} {p : Nat} {rest : List (Identity × Slot)}
    (hp : passes[p]? = some ⟨none, c :: rest⟩) :
    Spans (f.engine e) calls passes ((probeContact e f c).engine e)
      (passes.set p ⟨none, rest⟩) := by
  have hlook : Moment.move? ⟨f.engine e, calls, passes⟩ (.look p) =
      some ⟨f.engine e, calls,
        passes.set p ⟨if (f.engine e).isQuiet c.2 then some c else none, rest⟩⟩ := by
    simp [Moment.move?, hp]
  unfold probeContact
  by_cases hq : (f.engine e).isQuiet c.2 = true
  · rw [if_pos hq] at hlook ⊢
    have hping : Traces e f (f.pingFrom e c.1) := traces_pingFrom
    have hasked : Spans (f.engine e) calls passes ((f.pingFrom e c.1).engine e)
        (passes.set p ⟨some c, rest⟩) :=
      (Spans.of_move hlook).trans fun _ _ => hping.2 he _ _
    refine hasked.trans fun more others => ?_
    have hevict := @spans_evictFrom (f.pingFrom e c.1) e (hping.1 ▸ he) c (calls ++ more) _ p rest
      (Moment.getElem?_set_append others hp)
    rwa [Moment.set_set_append hp] at hevict
  · rw [if_neg hq] at hlook ⊢
    exact .of_move hlook

theorem spans_foldl_probeContact (he : e < f.engines.length) {order : List (Identity × Slot)}
    {calls : List Call} {passes : List Pass} {p : Nat} (hp : passes[p]? = some ⟨none, order⟩) :
    Spans (f.engine e) calls passes ((order.foldl (probeContact e) f).engine e)
      (passes.set p ⟨none, []⟩) := by
  induction order generalizing f calls passes with
  | nil =>
    have hset : passes.set p ⟨none, []⟩ = passes := by
      rw [← (List.getElem?_eq_some_iff.1 hp).2, List.set_getElem_self]
    rw [hset]
    exact .refl
  | cons c order ih =>
    refine (spans_probeContact he hp).trans fun more others => ?_
    have hrest := @ih (probeContact e f c) (by rwa [length_probeContact]) (calls ++ more) _
      (Moment.getElem?_set_append others hp)
    rwa [Moment.set_set_append hp] at hrest

theorem length_foldl_probeContact (order : List (Identity × Slot)) :
    (order.foldl (probeContact e) f).engines.length = f.engines.length := by
  induction order generalizing f with
  | nil => rfl
  | cons c order ih => rw [List.foldl_cons, ih, length_probeContact]

/-- **A liveness pass, in any order of the contacts, is a run of each engine.** -/
theorem traces_pass {order : List (Identity × Slot)}
    (horder : order.Perm (f.engine d).directory.remotes.toList) :
    Traces e f (order.foldl (probeContact d) f) := by
  by_cases hde : d = e
  · subst hde
    refine ⟨length_foldl_probeContact order, fun hd calls passes => ?_⟩
    have hbegin : Moment.move? ⟨f.engine d, calls, passes⟩ (.beginPass order) =
        some ⟨f.engine d, calls, passes ++ [⟨none, order⟩]⟩ := by
      simp [Moment.move?, horder]
    obtain ⟨moves, calls', passes', hrun, hcalls, hpasses⟩ :=
      @spans_foldl_probeContact f d hd order calls (passes ++ [⟨none, order⟩]) passes.length (by simp)
    refine ⟨.beginPass order :: moves, calls', ⟨none, []⟩ :: passes', ?_, hcalls, ?_⟩
    · rw [Moment.run?, hbegin, Option.bind_some, hrun]
      simp
    · intro p hp
      rcases List.mem_cons.1 hp with rfl | hp
      · exact ⟨rfl, rfl⟩
      · exact hpasses p hp
  · clear horder
    induction order generalizing f with
    | nil => exact closed_traces.refl f
    | cons c order ih => exact .trans (traces_probeContact hde c) ih

theorem traces_probe : Traces e f (f.probe d) := traces_pass (.refl _)

/-! ## Joining and leaving -/

theorem traces_setStanding {a : AgentId} (s : Standing) : Traces e f (f.setStanding a s) :=
  .of_engines rfl

theorem traces_insertLocal {i : Identity} {a : AgentId} {directory : Directory}
    (h : (f.engine d).directory.insertLocal? i a = some directory) :
    Traces e f (f.setDirectory d directory) := by
  refine .of_move (.register i a) fun calls passes => ?_
  simp only [Moment.move?, h, Option.map_some]
  rfl

theorem traces_removeLocal (i : Identity) :
    Traces e f (f.setDirectory d ((f.engine d).directory.removeLocal i)) :=
  .of_move (.unregister i) fun _ _ => rfl

theorem traces_removeLocalAgent (i : Identity) (a : AgentId) :
    Traces e f (f.setDirectory d ((f.engine d).directory.removeLocalAgent i a)) :=
  .of_move (.withdraw i a) fun _ _ => rfl

theorem traces_clear : Traces e f (f.setDirectory d (f.engine d).directory.clear) :=
  .of_move .forget fun _ _ => rfl

theorem traces_enroll {a : AgentId} (h : f.enroll a d = .ok g) : Traces e f g := by
  unfold enroll at h
  simp only at h
  split at h
  · split at h
    · next directory hd =>
      cases h
      have hengine : (f.setStanding a (.joining d)).engine d = f.engine d := rfl
      exact (traces_setStanding _).trans (traces_insertLocal (hengine ▸ hd))
    · contradiction
  · contradiction

theorem traces_beginJoin {a : AgentId} {j : Join} (h : f.beginJoin a d = .ok (g, j)) :
    Traces e f g := by
  unfold beginJoin at h
  cases henroll : f.enroll a d with
  | error refusal =>
    rw [henroll] at h
    contradiction
  | ok f₁ =>
    rw [henroll] at h
    cases h
    have hopen : Traces e f₁ (f₁.openSession a d).1 := .of_engines rfl
    have harrive : Traces e (f₁.openSession a d).1 ((f₁.openSession a d).1.announceArrival a d) :=
      .trans (closed_traces.aside aside_fresh) traces_send
    exact (traces_enroll henroll).trans (hopen.trans (harrive.trans
      (.trans (closed_traces.aside aside_fresh) traces_send)))

theorem traces_releaseSession {j : Join} {t : ThreadId} : Traces e f (f.releaseSession j t) :=
  .of_engines rfl

theorem traces_finishJoin {j : Join} {t : ThreadId} : Traces e f (f.finishJoin j t) := by
  have hrelease : Traces e f (f.releaseSession j t) := traces_releaseSession
  unfold finishJoin attach
  exact hrelease.trans ((traces_setFanout _).trans (traces_setStanding _))

theorem traces_dropJoin {j : Join} {t : ThreadId} : Traces e f (f.dropJoin j t) := by
  unfold dropJoin
  exact traces_releaseSession.trans ((traces_setStanding _).trans (traces_removeLocalAgent _ _))

theorem traces_leave {a : AgentId} (h : f.leave a = .ok g) : Traces e f g := by
  unfold leave at h
  cases hdetach : f.detach a with
  | error refusal =>
    rw [hdetach] at h
    contradiction
  | ok r =>
    obtain ⟨f₁, d⟩ := r
    rw [hdetach] at h
    cases h
    have hannounce : Traces e f₁ (f₁.announceDeparture a d) :=
      .trans (closed_traces.aside aside_fresh) traces_send
    refine Traces.trans ?_ (hannounce.trans (traces_removeLocal _))
    unfold detach at hdetach
    split at hdetach
    · contradiction
    · contradiction
    · cases hdetach
      exact (traces_setStanding _).trans (traces_setFanout _)

/-! ## Commands -/

theorem traces_closeGateways (xs : List GatewayId) :
    Traces e f (xs.foldl (fun f g => (f.closeGateway g).1) f) := by
  induction xs generalizing f with
  | nil => exact closed_traces.refl f
  | cons x xs ih =>
    have hclose : (f.closeGateway x).1.engines = f.engines := by
      unfold closeGateway
      split <;> rfl
    exact .trans (.of_engines hclose) ih

theorem traces_stopTasks : Traces e f (f.stopTasks d) :=
  .trans .of_tend (.of_engines rfl)

theorem traces_shutdown : Traces e f (f.shutdown d) := by
  have hstop : Traces e f (f.stopTasks d) := traces_stopTasks
  unfold shutdown
  exact hstop.trans ((traces_closeGateways _).trans traces_clear)

theorem traces_settleWith {α : Type} {result : Except Refusal α} {k : α → Fabric × Outcome}
    (h : ∀ a, result = .ok a → Traces e f (k a).1) : Traces e f (f.settleWith result k).1 := by
  unfold settleWith
  cases result with
  | ok a => exact h a rfl
  | error refusal => exact closed_traces.refl f

theorem traces_carryOut (c : Command) : Traces e f (f.carryOut c).1 := by
  cases c with
  | leave a => exact traces_settleWith fun _ h => traces_leave h
  | sendFrom a m =>
    refine traces_settleWith fun r h => ?_
    unfold sendFrom at h
    split at h
    · cases h
      exact traces_send
    · contradiction
  | send d m => exact traces_send
  | registerEndpoint a endpoint => exact .of_engines rfl
  | inject b m =>
    have h : Traces e f (f.inject b m).1 := traces_inject
    simp only [carryOut]
    split <;> next heq => rwa [heq] at h
  | process d m => exact traces_process
  | setClock d now => exact .of_move (.setClock now) fun _ _ => rfl
  | probe d => exact traces_probe
  | shutdown d => exact traces_shutdown
  | drop d => exact traces_stopTasks.trans .of_tend
  | listen d name => exact traces_setFanout _
  | unlisten d name => exact traces_setFanout _
  | setFailing x failing =>
    refine .of_engines ?_
    simp only [carryOut, setFailing]
    split <;> rfl
  | setAnswer x answer =>
    refine .of_engines ?_
    simp only [carryOut, setAnswer]
    split <;> rfl
  | close x =>
    refine .of_engines ?_
    simp only [carryOut, closeGateway]
    split <;> rfl
  | contact d i => exact closed_traces.refl f
  | describe d => exact closed_traces.refl f
  | join a d cutoff => exact closed_traces.refl f
  | rest millis => exact closed_traces.refl f

/-- **What a thread does when it goes on is a run of each engine.** -/
theorem traces_resume (t : ThreadId) (p : Pause) : Traces e f (f.resume t p).1 := by
  cases p with
  | rest time =>
    simp only [resume]
    split <;> exact closed_traces.refl f
  | join j start deadline cutoff =>
    simp only [resume]
    split
    · exact .trans (.of_engines rfl) traces_finishJoin
    · split
      · exact traces_finishJoin
      · split
        · exact traces_dropJoin
        · exact closed_traces.refl f

theorem traces_startJoin (t : ThreadId) (a : AgentId) (cutoff : Option Nat) :
    Traces e f (f.startJoin t a d cutoff).1 := by
  unfold startJoin
  cases hbegin : f.beginJoin a d with
  | error refusal => exact closed_traces.refl f
  | ok r =>
    obtain ⟨g, j⟩ := r
    refine (traces_beginJoin hbegin).trans ?_
    have hwait : Traces e g (g.beginWait j t).1 := .of_engines rfl
    simp only
    split
    · exact hwait.trans traces_finishJoin
    · exact hwait.trans (traces_resume t _)

/-- **Every command that begins is a run of each engine.** -/
theorem traces_start (t : ThreadId) (c : Command) : Traces e f (f.start t c).1 := by
  have hover := @traces_carryOut f e c
  cases c with
  | join a d cutoff => exact traces_startJoin t a cutoff
  | rest millis => exact traces_resume t _
  | _ => exact hover

/-- The pass that is due, and the time of the next one. -/
theorem traces_tick : Traces e f (f.tick d) := by
  unfold tick
  split
  · exact closed_traces.refl f
  · exact traces_probe.trans (.trans .of_tend (.of_engines rfl))

/-- The worker of an engine delivers what is queued. -/
theorem traces_work : Traces e f (f.work d) := by
  unfold work
  split
  · exact closed_traces.refl f
  · next m audience fanout _ =>
    have hdeliver : Traces e (f.setFanout d fanout) ((f.setFanout d fanout).deliver receive m audience) :=
      closed_traces.deliver keeps_traces_receive trivial audience
    have hwork := Traces.trans (traces_setFanout fanout) hdeliver
    simp only
    split
    · exact hwork
    · exact hwork.trans (.of_engines rfl)

end Fabric

/-! ## Schedules -/

namespace Schedule

open Fabric

variable {s r : Schedule} {e : EngineId}

theorem engines_park (t : ThreadId) (plans : List (Nat × Plan)) (wait : Option Wait)
    (times : List Nat) (endings : List Ending) :
    (s.park t plans wait times endings).fabric.engines = s.fabric.engines := by
  unfold park
  generalize s.fabric = f
  induction times generalizing f with
  | nil => rfl
  | cons time times ih => exact (ih (f.setTimer time (.thread t))).trans rfl

theorem traces_park (t : ThreadId) (plans : List (Nat × Plan)) (wait : Option Wait)
    (times : List Nat) (endings : List Ending) :
    Traces e s.fabric (s.park t plans wait times endings).fabric :=
  .of_engines (engines_park t plans wait times endings)

theorem traces_proceed (t : ThreadId) (endings : List Ending) (plans : List (Nat × Plan)) :
    Traces e s.fabric (s.proceed t endings plans).fabric := by
  induction plans generalizing s endings with
  | nil => exact (traces_park t [] none [] endings).trans (.of_engines rfl)
  | cons p rest ih =>
    obtain ⟨time, plan⟩ := p
    unfold proceed
    split
    · exact traces_park t _ _ _ _
    · cases plan with
      | one c =>
        have hstart : Traces e s.fabric (s.fabric.start t c).1 := traces_start t c
        simp only
        split
        · next f outcome heq =>
          rw [heq] at hstart
          exact hstart.trans (ih _)
        · next f pause heq =>
          rw [heq] at hstart
          exact hstart.trans (traces_park t _ _ _ _)
      | together threads =>
        cases threads with
        | nil => exact ih _
        | cons thread threads => exact (traces_park t _ _ _ _).trans (.of_engines rfl)

theorem traces_advance (t : ThreadId) : Traces e s.fabric (s.advance t).fabric := by
  have hclear : Traces e s.fabric (s.fabric.clearTimers (.thread t)) := .of_engines rfl
  unfold advance
  simp only
  split
  · exact hclear.trans (traces_proceed t _ _)
  · next pause _ =>
    have hresume : Traces e s.fabric ((s.fabric.clearTimers (.thread t)).resume t pause).1 :=
      hclear.trans (traces_resume t pause)
    split
    · next f outcome heq =>
      rw [heq] at hresume
      exact hresume.trans (traces_proceed t _ _)
    · next f pause heq =>
      rw [heq] at hresume
      exact hresume.trans (traces_park t _ _ _ _)
  · split
    · exact hclear.trans (traces_proceed t _ _)
    · exact .of_engines rfl

theorem traces_run (task : Task) : Traces e s.fabric (s.run task).fabric := by
  cases task with
  | worker d => exact traces_work
  | liveness d => exact traces_tick
  | thread t => exact traces_advance t

theorem traces_settleWithin? {patience : Nat} (h : settleWithin? patience s = some r) :
    Traces e s.fabric r.fabric := by
  induction patience generalizing s with
  | zero =>
    have he : s.fabric.ready.isEmpty = true ∧ s = r := by simpa [settleWithin?] using h
    exact .of_engines (by rw [he.2])
  | succ patience ih =>
    simp only [settleWithin?] at h
    split at h
    · exact .of_engines (by rw [Option.some.inj h])
    · next t rest _ =>
      have hready : Traces e s.fabric { s.fabric with ready := rest } := .of_engines rfl
      have hrun := @traces_run { s with fabric := { s.fabric with ready := rest } } e t
      exact hready.trans (hrun.trans (ih h))

theorem traces_elapseTo (time : Nat) : Traces e s.fabric (s.elapseTo time).fabric := by
  have hwake : ∀ (due : List (Nat × Task)) (f : Fabric),
      Traces e f (due.foldl (fun f d => f.wake d.2) f) := by
    intro due
    induction due with
    | nil => exact closed_traces.refl
    | cons d due ih => exact fun f => .trans (closed_traces.aside (aside_wake d.2)) (ih _)
  exact .trans (.of_engines rfl) (hwake _ _)

/-- **Whatever threads do to their ends is a run of each engine.** -/
theorem traces_complete? {patience moments : Nat} (h : complete? patience moments s = some r) :
    Traces e s.fabric r.fabric := by
  induction moments generalizing s with
  | zero => contradiction
  | succ moments ih =>
    simp only [complete?, Option.bind_eq_bind] at h
    obtain ⟨s', hsettle, h⟩ := Option.bind_eq_some_iff.1 h
    refine (traces_settleWithin? hsettle).trans ?_
    split at h
    · exact .of_engines (by rw [Option.some.inj h])
    · obtain ⟨time, -, h⟩ := Option.bind_eq_some_iff.1 h
      exact (traces_elapseTo time).trans (ih h)

end Schedule

end Overlay
