import Overlay.Proofs.Attachment.Bonds
import Overlay.Proofs.Mesh.Leaving
import Overlay.Proofs.Schedules

/-!
# Commands as runs

A command that a thread begins or resumes is a run of turns in which no other call comes in between.
So what is proved of all runs holds of whatever commands do, in whatever order threads get on with
them.
-/

namespace Overlay

/-! ## What stands aloof -/

namespace Fanout

variable {F : Fanout Hearer}

/-- Recorders come and go without touching a responder. -/
theorem responders_filter {keep : SubscriptionId × Hearer → Bool}
    (hkeep : ∀ l ∈ F.listeners, l.2.agent?.isSome → keep l = true) :
    { F with listeners := F.listeners.filter keep }.responders = F.responders := by
  simp only [responders]
  generalize F.listeners = ls at hkeep
  induction ls with
  | nil => rfl
  | cons l ls ih =>
    have hrest := ih fun k hk => hkeep k (List.mem_cons_of_mem _ hk)
    have hfirst := hkeep l List.mem_cons_self
    cases ha : l.2.agent? with
    | none => by_cases hl : keep l = true <;> simp_all
    | some a => simp_all

theorem responders_subscribe_recorder (name : String) :
    (F.subscribe (.recorder name)).1.responders = F.responders := by
  simp [responders, subscribe, Hearer.agent?]

end Fanout

namespace Fabric

variable {f g : Fabric} {a : AgentId} {d e : EngineId} {t : ThreadId} {j : Join}

namespace Aloof

theorem openSession : f.Aloof (f.openSession a e).1 := .of_eq rfl rfl

theorem beginWait : f.Aloof (f.beginWait j t).1 := .of_eq rfl rfl

theorem releaseSession : f.Aloof (f.releaseSession j t) := .of_eq rfl rfl

theorem announceArrival : f.Aloof (f.announceArrival a e) :=
  (aside aside_fresh).trans (send _ _)

theorem askAround : f.Aloof (f.askAround a e) := (aside aside_fresh).trans (send _ _)

theorem announceDeparture : f.Aloof (f.announceDeparture a e) :=
  (aside aside_fresh).trans (send _ _)

theorem dispatch (m : Message) : f.Aloof (f.dispatch e m) := closed.dispatchBy receive trivial e

theorem listen (name : String) : f.Aloof (f.listen e name) := by
  refine .setFanout ?_ (Nat.le_succ _)
  refine (Fanout.responders_filter fun l hl ha => ?_).trans
    (Fanout.responders_subscribe_recorder name)
  cases h : l.2 <;> simp_all [Hearer.agent?]

theorem unlisten (name : String) : f.Aloof (f.unlisten e name) := by
  refine .setFanout (Fanout.responders_filter fun l hl ha => ?_) (Nat.le_refl _)
  cases h : l.2 <;> simp_all [Hearer.agent?]

theorem registerEndpoint (endpoint : Endpoint) : f.Aloof (f.registerEndpoint a endpoint) := by
  have hmember : ∀ b, ((f.registerEndpoint a endpoint).member b).standing = (f.member b).standing ∧
      ((f.registerEndpoint a endpoint).member b).agent.identity = (f.member b).agent.identity := by
    intro b
    by_cases hb : b = a
    · subst hb
      by_cases hlt : b < f.members.length
      · simp [Fabric.registerEndpoint, setAgent, member, List.getD, hlt, Agent.withEndpoint]
      · rw [Fabric.registerEndpoint, setAgent, List.modify_eq_self (Nat.le_of_not_lt hlt)]
        exact ⟨rfl, rfl⟩
    · simp [Fabric.registerEndpoint, setAgent, member, List.getD, Ne.symm hb]
  exact ⟨rfl, fun b => (hmember b).1, fun b => (hmember b).2, List.length_modify _ _ _,
    fun _ => rfl, fun _ => rfl, fun _ => Nat.le_refl _⟩

theorem stopTasks : f.Aloof (f.stopTasks e) := by
  have hengine : f.Aloof (f.setEngine e
      { f.engine e with nextPass := none, fanout := (f.engine e).fanout.stop }) :=
    setEngine rfl rfl (Nat.le_refl _)
  exact hengine.trans (.of_eq rfl rfl)

theorem evictFrom (contact : Identity) (s : Slot) : f.Aloof (f.evictFrom e contact s) := by
  unfold Fabric.evictFrom
  cases hx : (f.engine e).evicted? contact s with
  | none => exact refl f
  | some x =>
    have hgone : f.Aloof (f.setEngine e x) := by
      unfold Engine.evicted? at hx
      split at hx
      · obtain rfl := Option.some.inj hx
        exact setEngine rfl rfl (Nat.le_refl _)
      · contradiction
    exact hgone.trans ((aside aside_fresh).trans (dispatch _))

theorem probe : f.Aloof (f.probe e) := by
  unfold Fabric.probe
  induction (f.engine e).directory.remotes.toList generalizing f with
  | nil => exact refl f
  | cons contact contacts ih =>
    have hcontact : f.Aloof (probeContact e f contact) := by
      unfold probeContact
      split
      · exact ((aside aside_fresh).trans (send _ _)).trans (evictFrom _ _)
      · exact refl f
    exact hcontact.trans ih

/-- A liveness pass that is due. -/
theorem tick : f.Aloof (f.tick e) := by
  unfold Fabric.tick
  split
  · exact refl f
  · exact probe.trans (schedulePass _)

/-- The worker of an engine takes a message. -/
theorem take {m : Message} {audience : List Hearer} {fanout : Fanout Hearer}
    (htake : (f.engine e).fanout.take? = some (m, audience, fanout)) :
    f.Aloof (f.setFanout e fanout) := by
  have hfanout : fanout.listeners = (f.engine e).fanout.listeners ∧
      fanout.next = (f.engine e).fanout.next := by
    unfold Fanout.take? at htake
    split at htake
    · contradiction
    · cases htake
      exact ⟨rfl, rfl⟩
  refine .setFanout ?_ (Nat.le_of_eq hfanout.2.symm)
  simp only [Fanout.responders, hfanout.1]

/-- The worker of an engine delivers what is queued. -/
theorem work : f.Aloof (f.work e) := by
  unfold Fabric.work
  split
  · exact refl f
  · next m audience fanout htake =>
    have hdeliver := (take htake).trans (closed.deliver (m := m) receive trivial audience)
    simp only
    split
    · exact hdeliver
    · exact hdeliver.trans (.of_eq rfl rfl)

end Aloof

/-- Whatever is over at once and neither makes an agent leave nor shuts an engine down. -/
theorem Aloof.carryOut {c : Command} (hleave : ∀ a, c ≠ .leave a) (hup : ∀ e, c ≠ .shutdown e) :
    f.Aloof (f.carryOut c).1 := by
  cases c with
  | leave a => exact absurd rfl (hleave a)
  | shutdown e => exact absurd rfl (hup e)
  | sendFrom a m =>
    simp only [Fabric.carryOut, settleWith, sendFrom]
    split
    · next heq =>
      split at heq
      · cases heq
        exact send _ _
      · contradiction
    · exact refl f
  | send e m => exact send e m
  | registerEndpoint a endpoint => exact registerEndpoint endpoint
  | inject b m =>
    have h : f.Aloof (f.inject b m).1 := inject b m
    simp only [Fabric.carryOut]
    split <;> next heq => rwa [heq] at h
  | process e m => exact process e m
  | setClock e now => exact setEngine rfl rfl (Nat.le_refl _)
  | probe e => exact probe
  | drop e => exact stopTasks.trans (setEngine rfl rfl (Nat.le_refl _))
  | listen e name => exact listen name
  | unlisten e name => exact unlisten name
  | setFailing x failing =>
    simp only [Fabric.carryOut, Fabric.setFailing]
    split <;> exact .of_eq rfl rfl
  | setAnswer x answer =>
    simp only [Fabric.carryOut, Fabric.setAnswer]
    split <;> exact .of_eq rfl rfl
  | close x =>
    simp only [Fabric.carryOut, closeGateway]
    split <;> exact .of_eq rfl rfl
  | contact e i => exact refl f
  | describe e => exact refl f
  | join a e cutoff => exact refl f
  | rest millis => exact refl f

/-- An agent that was detached stands as before when it is detached again. -/
theorem setStanding_detached (s : Standing) (h : (f.member a).standing = .detached) :
    (f.setStanding a s).setStanding a .detached = f := by
  have hmembers : (f.members.modify a fun old => { old with standing := s }).modify a
      (fun old => { old with standing := .detached }) = f.members := by
    rw [List.modify_modify_eq]
    refine List.ext_getElem? fun i => ?_
    rw [List.getElem?_modify]
    by_cases hi : a = i
    · subst hi
      cases hx : f.members[a]? with
      | none => simp
      | some x =>
        rw [member, List.getD, hx] at h
        simp only [Option.getD_some] at h
        simp [← h]
    · simp [hi]
  simp only [setStanding, hmembers]

end Fabric

/-! ## Commands -/

/-- Where the call of a command has got to that has come so far. -/
def Progress.stage : Progress → Stage
  | .paused (.join j _ _ _) => .waiting j.agent j.engine
  | .paused (.rest _) | .over _ => .over

namespace Scene

variable {D : EngineId → Prop} {s s' s'' : Scene} {f g : Fabric} {calls : List Stage} {k : Nat}
  {a : AgentId} {e : EngineId} {j : Join} {t : ThreadId} {turn : Turn} {ts ts' : List Turn}

theorem Run.append (h : Run s ts s') (h' : Run s' ts' s'') : Run s (ts' ++ ts) s'' := by
  induction h' with
  | nil => exact h
  | cons _ hstep ih => exact ih.cons hstep

theorem call_append (stage : Stage) :
    (⟨f, calls ++ [stage]⟩ : Scene).call calls.length = stage := by
  simp [call]

/-- An agent is registered. -/
theorem run_enroll (ha : a < s.fabric.members.length) (he : e < s.fabric.engines.length)
    (hg : s.fabric.enroll a e = .ok g) :
    Run s [.act .register a e, .act .begin a e] (s.enter (.waiting a e) g) := by
  obtain ⟨f, calls⟩ := s
  unfold Fabric.enroll at hg
  simp only at hg
  split at hg
  · next hdetached =>
    split at hg
    · next directory hinsert =>
      obtain rfl := Except.ok.inj hg
      have hregister := Step.register (s := enter ⟨f, calls⟩ (.entering a e)
        (f.setStanding a (.joining e))) (k := calls.length) (a := a) (e := e) (D := directory)
        (call_append _) ((congrArg (fun i => (f.engine e).directory.insertLocal? i a)
          (identity_setStanding (s := ⟨f, calls⟩) a)).trans hinsert)
      have hcalls : (calls ++ [Stage.entering a e]).set calls.length (.waiting a e) =
          calls ++ [.waiting a e] := by simp
      simp only [move, enter, hcalls] at hregister
      exact .cons (.cons .nil (.begin ha he hdetached)) hregister
    · contradiction
  · contradiction

/-- The responder of an agent that waits is subscribed, and the agent is attached. -/
theorem run_attach (hcall : s.call k = .waiting a e) :
    Run s [.act .settle a e, .act .subscribe a e] (s.move k .over (s.fabric.attach a e)) := by
  have hover : s.call k ≠ .over := by simp [hcall]
  have hsettle := Step.settle (k := k) (a := a) (e := e) (r := (s.fabric.engine e).fanout.next)
    ((call_move (f := s.fabric.setFanout e ((s.fabric.engine e).fanout.subscribe
      (.responder a (s.fabric.engine e).identity)).1) hover).trans (if_pos rfl))
  have hcalls : ∀ x y : Stage, (s.calls.set k x).set k y = s.calls.set k y := by simp
  simp only [move, hcalls] at hsettle
  exact .cons (.cons .nil (.subscribe hcall)) hsettle

/-- A join is refused because the identity is taken. -/
theorem run_refused (ha : a < s.fabric.members.length) (he : e < s.fabric.engines.length)
    (hdetached : s.standing a = .detached)
    (hinsert : (s.fabric.engine e).directory.insertLocal? (s.identity a) a = none) :
    Run s [.act .reset a e, .act .refuse a e, .act .begin a e] (s.enter .over s.fabric) := by
  obtain ⟨f, calls⟩ := s
  have hrefuse := Step.refuse (s := enter ⟨f, calls⟩ (.entering a e)
    (f.setStanding a (.joining e))) (k := calls.length) (a := a) (e := e)
    (call_append _) ((congrArg (fun i => (f.engine e).directory.insertLocal? i a)
      (identity_setStanding (s := ⟨f, calls⟩) a)).trans hinsert)
  have hreset := Step.reset (s := ⟨f.setStanding a (.joining e), calls ++ [.refused a e]⟩)
    (k := calls.length) (call_append _)
  have hfabric := Fabric.setStanding_detached (.joining e) hdetached
  have hcalls : ∀ x y : Stage, (calls ++ [x]).set calls.length y = calls ++ [y] := by simp
  simp only [move, enter, hcalls, hfabric] at hrefuse hreset
  exact .cons (.cons (.cons .nil (.begin ha he hdetached)) hrefuse) hreset

/-- A run leads from one scene to another, and only certain engines are shut down on the way. -/
def Leads (D : EngineId → Prop) (s s' : Scene) : Prop :=
  ∃ ts, Run s ts s' ∧ ∀ e, .shutdown e ∈ ts → D e

namespace Leads

theorem refl (s : Scene) : Leads D s s := ⟨[], .nil, fun _ h => absurd h List.not_mem_nil⟩

theorem trans (h : Leads D s s') (h' : Leads D s' s'') : Leads D s s'' := by
  obtain ⟨ts, hrun, hup⟩ := h
  obtain ⟨ts', hrun', hup'⟩ := h'
  refine ⟨ts' ++ ts, hrun.append hrun', fun e he => ?_⟩
  rcases List.mem_append.1 he with he | he
  · exact hup' e he
  · exact hup e he

theorem step (hstep : Step s turn s') (hup : ∀ e, turn = .shutdown e → D e) : Leads D s s' :=
  ⟨[turn], .cons .nil hstep, fun e he => hup e (List.mem_singleton.1 he).symm⟩

/-- A call gets on. -/
theorem act {x : Act} (hstep : Step s (.act x a e) s') : Leads D s s' := step hstep (by simp)

theorem aloof (h : f.Aloof g) : Leads D ⟨f, calls⟩ ⟨g, calls⟩ := step (.other h) (by simp)

end Leads

theorem leads_enroll (ha : a < f.members.length) (he : e < f.engines.length)
    (hg : f.enroll a e = .ok g) : Leads D ⟨f, calls⟩ ⟨g, calls ++ [.waiting a e]⟩ :=
  ⟨_, run_enroll (s := ⟨f, calls⟩) ha he hg, by simp⟩

theorem leads_refused (ha : a < f.members.length) (he : e < f.engines.length)
    (hdetached : (f.member a).standing = .detached)
    (hinsert : (f.engine e).directory.insertLocal? (f.member a).agent.identity a = none) :
    Leads D ⟨f, calls⟩ ⟨f, calls ++ [.over]⟩ :=
  ⟨_, run_refused (s := ⟨f, calls⟩) ha he hdetached hinsert, by simp⟩

theorem leads_attach (hcall : (⟨f, calls⟩ : Scene).call k = .waiting a e) :
    Leads D ⟨f, calls⟩ ⟨f.attach a e, calls.set k .over⟩ :=
  ⟨_, run_attach hcall, by simp⟩

/-- A join whose wait is over comes to its end. -/
theorem leads_finishJoin (hcall : (⟨f, calls⟩ : Scene).call k = .waiting j.agent j.engine) :
    Leads D ⟨f, calls⟩ ⟨f.finishJoin j t, calls.set k .over⟩ :=
  (Leads.aloof .releaseSession).trans (leads_attach hcall)

/-- A join is dropped while it waits. -/
theorem leads_dropJoin (hcall : (⟨f, calls⟩ : Scene).call k = .waiting j.agent j.engine) :
    Leads D ⟨f, calls⟩ ⟨f.dropJoin j t, calls.set k .over⟩ := by
  have hover : (⟨f.releaseSession j t, calls⟩ : Scene).call k ≠ .over := by
    intro hk
    rw [show (⟨f.releaseSession j t, calls⟩ : Scene).call k = _ from hcall] at hk
    contradiction
  have hdrop := Step.drop (s := ⟨f.releaseSession j t, calls⟩) hcall
  have habandon := Step.abandon (k := k) (a := j.agent) (e := j.engine)
    ((call_move (f := (f.releaseSession j t).setStanding j.agent .detached) hover).trans
      (if_pos rfl))
  have hcalls : ∀ x y : Stage, (calls.set k x).set k y = calls.set k y := by simp
  simp only [move, hcalls] at habandon
  exact (Leads.aloof .releaseSession).trans ((Leads.act hdrop).trans (Leads.act habandon))

/-- A whole leave. -/
theorem leads_leave (hg : f.leave a = .ok g) : Leads D ⟨f, calls⟩ ⟨g, calls ++ [.over]⟩ := by
  obtain ⟨v, e, hv, rfl⟩ := Fabric.leave_eq_ok hg
  obtain ⟨r, hstanding, rfl⟩ := Fabric.detach_eq_ok hv
  have hleave : Step ⟨f, calls⟩ (.act .leave a e) _ := .leave hstanding
  have hunsubscribe := Step.unsubscribe (k := calls.length) (a := a) (e := e) (r := r)
    (s := ⟨f.setStanding a .detached, calls ++ [.leaving a e r]⟩) (call_append _)
  have hunregister := fun w => Step.unregister (k := calls.length) (a := a) (e := e)
    (s := ⟨w, calls ++ [.departing a e]⟩) (call_append _)
  have hcalls : ∀ x y : Stage, (calls ++ [x]).set calls.length y = calls ++ [y] := by simp
  simp only [move, hcalls] at hunsubscribe hunregister
  exact (Leads.act hleave).trans ((Leads.act hunsubscribe).trans
    ((Leads.aloof .announceDeparture).trans (Leads.act (hunregister _))))

/-- A thread that waits for a join looks whether it can go on. -/
theorem leads_resume {start deadline : Nat} {cutoff : Option Nat}
    (hcall : (⟨f, calls⟩ : Scene).call k = .waiting j.agent j.engine) :
    Leads D ⟨f, calls⟩ ⟨(f.resume t (.join j start deadline cutoff)).1,
      calls.set k (f.resume t (.join j start deadline cutoff)).2.stage⟩ := by
  have hsame : calls.set k (.waiting j.agent j.engine) = calls := by
    have hk : k < calls.length := lt_of_call (s := ⟨f, calls⟩) (by simp [hcall])
    have hget : calls[k] = .waiting j.agent j.engine := by
      simpa [call, List.getD, List.getElem?_eq_getElem hk] using hcall
    rw [← hget, List.set_getElem_self]
  simp only [Fabric.resume]
  split
  · have hnoticed : Leads D ⟨f, calls⟩
        ⟨{ f with confirmed := f.confirmed.filter (· ≠ t) }, calls⟩ := .aloof (.of_eq rfl rfl)
    exact hnoticed.trans (leads_finishJoin hcall)
  · split
    · exact leads_finishJoin hcall
    · split
      · exact leads_dropJoin hcall
      · simp only [Progress.stage, hsame]
        exact .refl _

theorem beginJoin_cases (calls : List Stage) (ha : a < f.members.length)
    (he : e < f.engines.length) :
    (∃ refusal, f.beginJoin a e = .error refusal ∧
      ((f.member a).standing ≠ .detached ∨ Leads D ⟨f, calls⟩ ⟨f, calls ++ [.over]⟩)) ∨
    ∃ g j, f.beginJoin a e = .ok (g, j) ∧ j.agent = a ∧ j.engine = e ∧
      Leads D ⟨f, calls⟩ ⟨g, calls ++ [.waiting a e]⟩ := by
  cases henroll : f.enroll a e with
  | error refusal =>
    refine .inl ⟨refusal, by rw [Fabric.beginJoin, henroll]; rfl, ?_⟩
    unfold Fabric.enroll at henroll
    simp only at henroll
    split at henroll
    · next hdetached =>
      split at henroll
      · contradiction
      · next hinsert => exact .inr (leads_refused ha he hdetached hinsert)
    · next hattached => exact .inl hattached
  | ok v =>
    refine .inr ⟨_, _, by rw [Fabric.beginJoin, henroll]; rfl, rfl, rfl, ?_⟩
    exact (leads_enroll ha he henroll).trans (Leads.aloof
      (.trans .openSession (.trans .announceArrival .askAround)))

theorem leads_startJoin {cutoff : Option Nat} (ha : a < f.members.length)
    (he : e < f.engines.length) :
    ∃ s', Leads D ⟨f, calls⟩ s' ∧ s'.fabric = (f.startJoin t a e cutoff).1 ∧
      ∀ i, s'.call i = if i = calls.length then (f.startJoin t a e cutoff).2.stage
        else (⟨f, calls⟩ : Scene).call i := by
  have hcalls : ∀ {x y : Stage}, (calls ++ [x]).set calls.length y = calls ++ [y] := by simp
  obtain ⟨refusal, hbegin, hrefused⟩ | ⟨g, j, hbegin, rfl, rfl, hbegun⟩ :=
    beginJoin_cases (D := D) calls ha he
  · simp only [Fabric.startJoin, hbegin, Progress.stage]
    rcases hrefused with - | hrefused
    · refine ⟨_, .refl _, rfl, fun i => ?_⟩
      split
      · next hi => rw [hi, call_length (s := ⟨f, calls⟩)]
      · rfl
    · exact ⟨_, hrefused, rfl, fun i => call_enter (s := ⟨f, calls⟩)⟩
  · simp only [Fabric.startJoin, hbegin]
    have hwait := hbegun.trans (Leads.aloof (.beginWait (j := j) (t := t)))
    split
    · refine ⟨_, hwait.trans (leads_finishJoin (call_append _)), rfl, fun i => ?_⟩
      rw [hcalls]
      exact call_enter (s := ⟨f, calls⟩)
    · refine ⟨_, hwait.trans (leads_resume (call_append _)), rfl, fun i => ?_⟩
      rw [hcalls]
      exact call_enter (s := ⟨f, calls⟩)

/-- **A command that a thread begins is a run**, with a new call that is over or has to wait. -/
theorem leads_start {c : Command} (calls : List Stage) (hadmits : f.Admits c)
    (hup : ∀ e, c = .shutdown e → D e) :
    ∃ s', Leads D ⟨f, calls⟩ s' ∧ s'.fabric = (f.start t c).1 ∧
      ∀ i, s'.call i = if i = calls.length then (f.start t c).2.stage
        else (⟨f, calls⟩ : Scene).call i := by
  have hsame : ∀ i, (⟨f, calls⟩ : Scene).call i =
      if i = calls.length then .over else (⟨f, calls⟩ : Scene).call i := by
    intro i
    split
    · next hi => rw [hi, call_length (s := ⟨f, calls⟩)]
    · rfl
  have haloof : (∀ a, c ≠ .leave a) → (∀ e, c ≠ .shutdown e) →
      ∃ s', Leads D ⟨f, calls⟩ s' ∧ s'.fabric = (f.carryOut c).1 ∧
        ∀ i, s'.call i = if i = calls.length then .over else (⟨f, calls⟩ : Scene).call i :=
    fun hleave hshutdown => ⟨_, .aloof (.carryOut hleave hshutdown), rfl, hsame⟩
  cases c with
  | join a e cutoff => exact leads_startJoin hadmits.1 hadmits.2
  | rest millis =>
    simp only [Fabric.start, Fabric.resume]
    split <;> exact ⟨_, .refl _, rfl, hsame⟩
  | leave a =>
    simp only [Fabric.start, Fabric.carryOut, Fabric.settleWith]
    cases hleave : f.leave a with
    | error refusal => exact ⟨_, .refl _, rfl, hsame⟩
    | ok g => exact ⟨_, leads_leave hleave, rfl, fun i => call_enter (s := ⟨f, calls⟩)⟩
  | shutdown e => exact ⟨_, .step (.shutdown e) fun d hd => hup d (by cases hd; rfl), rfl, hsame⟩
  | _ => exact haloof (by simp) (by simp)

end Scene

end Overlay
