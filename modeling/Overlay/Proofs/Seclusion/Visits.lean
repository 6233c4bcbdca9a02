import Overlay.Fabric.Lifecycle
import Overlay.Proofs.Interleaving.Basic
import Overlay.Proofs.Seclusion.Basic

/-!
# Messages that are handed to a secluded engine

A secluded engine that delivers at once and is handed messages, one after the other, does with each
of them what its own state and the message say, and nothing else: it changes its directory, calls
its listeners or asks for the sender (`taken_process`).
-/

namespace Overlay

namespace Engine

/-- Whether a message that is handed to an engine goes to its listeners. -/
def passesOn (x : Engine) (m : Message) : Bool :=
  x.admits m && m.kind != .presence && m.kind != .pong

/-- Whether an engine asks the sender of a message that it is handed who that is. -/
def asks (x : Engine) (m : Message) : Bool :=
  x.admits m && m.kind == .pong && !x.directory.isRemote m.sender

/-- An engine after it has been handed a message at a time. -/
def visited (x : Engine) (now : Nat) (m : Message) : Engine :=
  ({ x with clock := now }.informed m).touched m.sender now

variable {x : Engine} {m : Message} {now : Nat}

@[simp] theorem fanout_informed : (x.informed m).fanout = x.fanout := by
  unfold informed
  split
  · split
    · next change _ => cases change <;> rfl
    · rfl
  · rfl

@[simp] theorem identity_informed : (x.informed m).identity = x.identity := by
  unfold informed
  split
  · split
    · next change _ => cases change <;> rfl
    · rfl
  · rfl

@[simp] theorem fanout_visited : (x.visited now m).fanout = x.fanout :=
  fanout_informed (x := { x with clock := now })

@[simp] theorem identity_visited : (x.visited now m).identity = x.identity :=
  identity_informed (x := { x with clock := now })

/-- What an engine does depends on the kind of a message, and on whether it knows the sender. -/
theorem reaction_cases (x : Engine) (m : Message) :
    (m.kind = .presence ∧ (x.reaction m = .nothing ∨ ∃ change, x.reaction m = .membership change)) ∨
      (m.kind = .pong ∧ (x.directory.isRemote m.sender = true ∧ x.reaction m = .nothing ∨
        x.directory.isRemote m.sender = false ∧ x.reaction m = .enquiry)) ∨
      (m.kind ≠ .presence ∧ m.kind ≠ .pong ∧ x.reaction m = .dispatch) := by
  unfold reaction
  grind

end Engine

namespace Fabric

variable {f g h : Fabric} {e : EngineId} {m : Message} {causes : List Message} {t : Errand}
  {said : List Message} {name : String} {group : EngineId → Prop} {visits : List (Nat × Message)}

def visit (e : EngineId) (f : Fabric) (v : Nat × Message) : Fabric :=
  (f.setClock e v.1).process e v.2

/-- A message has been handed to an engine, which has said some messages meanwhile. -/
structure Taken (e : EngineId) (m : Message) (f g : Fabric) (said : List Message) : Prop where
  engine : g.engine e = ((f.engine e).informed m).touched m.sender (f.engine e).clock
  noted : ∀ name, .recorder name ∈ (f.engine e).fanout.audience → g.noted name = f.noted name ++
    if (f.engine e).passesOn m then
      List.replicate ((f.engine e).fanout.audience.count (.recorder name)) m
    else []
  asked : ∃ uuid, said.filter (·.kind = .discovery) =
    if (f.engine e).asks m then [.discovery uuid (f.engine e).identity m.sender] else []

theorem Runs.of_singleton (hrun : Runs e f [t] g said) : ∃ more,
    Runs e (f.perform t).1 (f.perform t).2 g more ∧ said = t.saidBy e ++ more := by
  cases hrun with
  | cons hnow hlater =>
    cases hlater
    exact ⟨_, hnow, by simp⟩

theorem noted_note (other : String) :
    ({ f with heard := (name, m) :: f.heard } : Fabric).noted other =
      f.noted other ++ if name = other then [m] else [] := by
  by_cases h : name = other <;> simp [noted, h]

/-- The listeners of a secluded engine are called one after the other. -/
theorem Runs.calls {audience : List Hearer}
    (hrun : Runs e f (audience.map fun l => ⟨.call l m, causes⟩) g said)
    (hs : f.Secluded e group) (haudience : ∀ l ∈ audience, l ∈ (f.engine e).fanout.audience) :
    g.engine e = f.engine e ∧
      (∀ name, .recorder name ∈ (f.engine e).fanout.audience →
        g.noted name = f.noted name ++ List.replicate (audience.count (.recorder name)) m) ∧
      ∀ n ∈ said, n.kind ≠ .discovery := by
  induction audience generalizing f said with
  | nil =>
    cases hrun
    exact ⟨rfl, by simp, by simp⟩
  | cons l audience ih =>
    have hparts : ∃ k first second, Runs e f [⟨.call l m, causes⟩] k first ∧
        Runs e k (audience.map fun l => ⟨.call l m, causes⟩) g second ∧ said = first ++ second :=
      Runs.split hrun
    obtain ⟨k, first, second, hfirst, hsecond, rfl⟩ := hparts
    have hk : k.engine e = f.engine e ∧ (∀ name, .recorder name ∈ (f.engine e).fanout.audience →
        k.noted name = f.noted name ++ if l = .recorder name then [m] else []) ∧
        ∀ n ∈ first, n.kind ≠ .discovery := by
      cases l with
      | recorder other =>
        obtain ⟨more, hmore, rfl⟩ := hfirst.of_singleton
        cases hmore
        refine ⟨rfl, fun name _ => ?_, by simp⟩
        simp only [perform, noted_note, Hearer.recorder.injEq]
      | responder a cloud =>
        obtain ⟨huntouched, hsaid⟩ := hfirst.harmless hs fun t ht => by
          obtain rfl := List.mem_singleton.1 ht
          exact hs.harmless_call (.inl rfl) (haudience _ List.mem_cons_self)
        exact ⟨huntouched.engine, fun name hname => by simp [huntouched.noted name hname], hsaid⟩
    obtain ⟨hengine, hnoted, hsaid⟩ := hk
    obtain ⟨hengine', hnoted', hsaid'⟩ := ih hsecond (hs.of_ways hfirst.ways) fun l hl =>
      hengine ▸ haudience l (List.mem_cons_of_mem _ hl)
    refine ⟨hengine'.trans hengine, fun name hname => ?_, ?_⟩
    · rw [hnoted' name (hengine ▸ hname), hnoted name hname]
      by_cases hl : l = .recorder name <;> simp [hl, List.replicate_succ]
    · simp only [List.mem_append]
      rintro n (hn | hn)
      · exact hsaid n hn
      · exact hsaid' n hn

/-- A secluded engine asks for somebody. -/
theorem Runs.ask {r : Message} (hrun : Runs e f [⟨.send e r, causes⟩] g said)
    (hs : f.Secluded e group) :
    Untouched e f g ∧ ∃ more, said = r :: more ∧ ∀ n ∈ more, n.kind ≠ .discovery := by
  obtain ⟨more, hmore, rfl⟩ := hrun.of_singleton
  obtain ⟨huntouched, hsaid⟩ := hmore.harmless hs (hs.harmless_hands (.inl rfl))
  exact ⟨huntouched, more, by simp [Errand.saidBy], hsaid⟩

theorem filter_eq_nil_of_ne (hsaid : ∀ n ∈ said, n.kind ≠ .discovery) :
    said.filter (·.kind = .discovery) = [] := by
  simpa using hsaid

/-- What a secluded engine does with a message that is meant for it, before it touches the sender.
-/
theorem Runs.react {now : Nat}
    (hrun : Runs e (f.reactErrand e m now causes).1 (f.reactErrand e m now causes).2 g said)
    (hs : f.Secluded e group) (hinline : (f.engine e).fanout.mode = .inline)
    (he : e < f.engines.length) (hadm : (f.engine e).admits m = true)
    (hnow : (f.engine e).clock = now) :
    g.engine e = (f.engine e).informed m ∧
      (∀ name, .recorder name ∈ (f.engine e).fanout.audience → g.noted name = f.noted name ++
        if (f.engine e).passesOn m then
          List.replicate ((f.engine e).fanout.audience.count (.recorder name)) m
        else []) ∧
      ∃ uuid, said.filter (·.kind = .discovery) =
        if (f.engine e).asks m then [.discovery uuid (f.engine e).identity m.sender] else [] := by
  obtain ⟨hkind, hr | ⟨change, hr⟩⟩ | ⟨hkind, ⟨hknown, hr⟩ | ⟨hknown, hr⟩⟩ | ⟨hpresence, hpong, hr⟩ :=
    (f.engine e).reaction_cases m
  · simp only [reactErrand, hr] at hrun
    cases hrun
    simp [Engine.informed, hadm, hr, Engine.passesOn, Engine.asks, hkind]
  · simp only [reactErrand, hr] at hrun
    cases hrun
    rw [engine_setEngine_self _ he]
    subst hnow
    simp [Engine.informed, hadm, hr, Engine.passesOn, Engine.asks, hkind]
    exact fun _ _ => rfl
  · simp only [reactErrand, hr] at hrun
    cases hrun
    simp [Engine.informed, hadm, hr, Engine.passesOn, Engine.asks, hkind, hknown]
  · simp only [reactErrand, hr] at hrun
    obtain ⟨hlater, more, rfl, hmore⟩ := hrun.ask (hs.of_ways (.of_eq rfl rfl rfl rfl))
    have huntouched : Untouched e f g := (Untouched.of_aside aside_fresh).trans hlater
    refine ⟨?_, fun name hname => ?_, f.fresh.1, ?_⟩
    · simpa [Engine.informed, hadm, hr] using huntouched.engine
    · simpa [Engine.passesOn, hkind] using huntouched.noted name hname
    · have hnone := filter_eq_nil_of_ne hmore
      simp [Engine.asks, hadm, hkind, hknown, hnone, Message.discovery, Message.plain,
        show f.fresh.2.engine e = f.engine e from rfl]
  · have hsame : (f.reactErrand e m now causes).1 = f := by
      have hset := setEngine_engine (f := f) e
      simpa [reactErrand, hr, dispatchErrand, Fanout.dispatch, hinline, setFanout] using hset
    have hcalls : (f.reactErrand e m now causes).2 =
        (f.engine e).fanout.audience.map fun l => ⟨.call l m, causes⟩ := by
      simp [reactErrand, hr, dispatchErrand, Fanout.dispatch, hinline]
    rw [hsame, hcalls] at hrun
    obtain ⟨hengine, hnoted, hsaid⟩ := hrun.calls hs fun _ hl => hl
    refine ⟨?_, fun name hname => ?_, default, ?_⟩
    · simpa [Engine.informed, hadm, hr] using hengine
    · simpa [Engine.passesOn, hadm, hpresence, hpong] using hnoted name hname
    · simpa [Engine.asks, hpong] using filter_eq_nil_of_ne hsaid

theorem Runs.touch {sender : Identity} {now : Nat}
    (hrun : Runs e f [⟨.touch e sender now, causes⟩] g said) :
    g = f.setEngine e ((f.engine e).touched sender now) ∧ said = [] := by
  obtain ⟨more, hmore, rfl⟩ := hrun.of_singleton
  cases hmore
  exact ⟨rfl, rfl⟩

/-- Whatever a message confirms, an engine processes it as if it confirmed nothing. -/
theorem Runs.process (hrun : Runs e f [⟨.process e m, causes⟩] g said) : ∃ k, f.SameWays k ∧
    Untouched e f k ∧
      if (f.engine e).admits m then
        ∃ h first, Runs e (k.reactErrand e m (f.engine e).clock causes).1
            (k.reactErrand e m (f.engine e).clock causes).2 h first ∧
          g = h.setEngine e ((h.engine e).touched m.sender (f.engine e).clock) ∧ said = first
      else g = k.setEngine e ((k.engine e).touched m.sender (f.engine e).clock) ∧ said = [] := by
  obtain ⟨more, hmore, rfl⟩ := hrun.of_singleton
  refine ⟨f.inspect e m, .inspect, .of_aside aside_inspect, ?_⟩
  simp only [perform, Closed.engine_inspect] at hmore
  split
  · next hadm =>
    simp only [hadm, if_true] at hmore
    obtain ⟨h, first, second, hfirst, hsecond, rfl⟩ := hmore.split
    obtain ⟨rfl, rfl⟩ := hsecond.touch
    exact ⟨h, first, hfirst, rfl, by simp⟩
  · next hadm =>
    simp only [hadm] at hmore
    obtain ⟨rfl, rfl⟩ := Runs.touch hmore
    exact ⟨rfl, rfl⟩

/-- **What a secluded engine does with a message that it is handed**, whatever the engines do that
hear of it. -/
theorem exists_taken_process (hs : f.Secluded e group)
    (hinline : (f.engine e).fanout.mode = .inline) (he : e < f.engines.length) (m : Message) :
    ∃ said, Runs e f [⟨.process e m, []⟩] (f.process e m) said ∧
      Taken e m f (f.process e m) said := by
  obtain ⟨said, hrun⟩ := (does_process f e m []).exists_runs e
  refine ⟨said, hrun, ?_⟩
  generalize f.process e m = g at hrun
  obtain ⟨k, hways, huntouched, hk⟩ := hrun.process
  have hlen : e < k.engines.length := hways.length ▸ he
  have hengine := huntouched.engine
  split at hk
  · next hadm =>
    obtain ⟨h, first, hfirst, rfl, rfl⟩ := hk
    obtain ⟨hinformed, hnoted, uuid, hsaid⟩ := hfirst.react (hs.of_ways hways)
      (by rw [hengine, hinline]) hlen (by rw [hengine, hadm]) (by rw [hengine])
    rw [hengine] at hinformed hnoted hsaid
    have hlen' : e < h.engines.length := by
      rw [hfirst.ways.length, (ways_reactErrand _).length]
      exact hlen
    constructor
    case engine => rw [engine_setEngine_self _ hlen', hinformed]
    case noted => exact fun name hname => (hnoted name hname).trans (by rw [huntouched.noted name hname])
    case asked => exact ⟨uuid, hsaid⟩
  · next hadm =>
    obtain ⟨rfl, rfl⟩ := hk
    rw [Bool.not_eq_true] at hadm
    constructor
    case engine =>
      rw [engine_setEngine_self _ hlen, hengine, Engine.informed, hadm]
      rfl
    case noted =>
      intro name hname
      change k.noted name = _
      simpa [Engine.passesOn, hadm] using huntouched.noted name hname
    case asked => exact ⟨default, by simp [Engine.asks, hadm]⟩

end Fabric

end Overlay
