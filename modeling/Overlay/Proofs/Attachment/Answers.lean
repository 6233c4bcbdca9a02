import Overlay.Proofs.Attachment.Journeys
import Overlay.Proofs.Attachment.Replies
import Overlay.Proofs.Cascade.Trace

/-!
# Every agent answers once

When an engine dispatches a message inline, its listeners are called one after the other, and each
responder that has to answer does so before the next one is called. The answer goes out at once and
may come back to the same engine, to be processed there before the first message is done with, and
may be answered in turn. So the answers are told by the messages in whose handling the calls came
up: those to the message itself are the ones with no such message (`direct`).

Nothing that happens on the way changes who is subscribed, who is attached to what or which
endpoints an agent has. So the answers to a message are settled when it comes in.
-/

namespace Overlay

structure Answer where
  agent : AgentId
  engine : EngineId
  message : Message

/-- What a message is that an agent sends to answer another one, apart from its own identifier. -/
def Agent.IsReply (a : Agent) (m reply : Message) : Prop :=
  (m.kind = .discovery ∧ ∃ uuid, reply = .presence uuid a.identity m.sender a.endpoints) ∨
    m.kind = .ping ∧ ∃ uuid, reply = .pong uuid a.identity m.sender

namespace Message

def Asks (m : Message) : Prop := m.kind = .discovery ∨ m.kind = .ping

instance (m : Message) : Decidable m.Asks := inferInstanceAs (Decidable (_ ∨ _))

end Message

namespace Fabric

variable {f g h : Fabric} {a : AgentId} {c e : EngineId} {m reply : Message} {cloud : Identity}
  {causes : List Message} {l : Hearer} {ls : List Hearer} {answers : List (Note Answer)}

/-! ## What a responder does -/

def answersAt (f : Fabric) : Errand → List Answer
  | ⟨.call (.responder a cloud) m, _⟩ => (f.answer? a cloud m).toList.map fun x => ⟨a, x.1, x.2⟩
  | _ => []

/-- What is seen is what is sent. -/
theorem perform_responder : (f.perform ⟨.call (.responder a cloud) m, causes⟩).2 =
    (f.answer? a cloud m).toList.map fun x => ⟨.send x.1 x.2, m :: causes⟩ := by
  have hreply : (f.fresh.2.member a).agent = (f.member a).agent := rfl
  have hstanding : (f.fresh.2.member a).standing = (f.member a).standing := rfl
  simp only [perform, answerErrand, answer?, hreply, hstanding]
  cases (f.member a).agent.reply? cloud f.fresh.1 m with
  | none => rfl
  | some reply => cases (f.member a).standing <;> rfl

/-- An attached agent answers whoever asks it or the cloud, and nobody else. -/
theorem isSome_answer? : (f.answer? a cloud m).isSome ↔
    m.Asks ∧ (m.recipient = (f.member a).agent.identity ∨ m.recipient = cloud) ∧
      ∃ c r, (f.member a).standing = .joined c r := by
  have hreply : ((f.member a).agent.reply? cloud f.fresh.1 m).isSome ↔
      m.Asks ∧ (m.recipient = (f.member a).agent.identity ∨ m.recipient = cloud) := by
    unfold Agent.reply? Message.Asks
    split
    · next haddress => simp [haddress]
    · next haddress =>
      rw [← not_or, not_not] at haddress
      cases m.kind <;> simp [haddress]
  rw [← and_assoc, ← hreply]
  unfold answer?
  cases (f.member a).agent.reply? cloud f.fresh.1 m with
  | none => simp
  | some reply => cases (f.member a).standing <;> simp

theorem isReply_of_answer? (h : f.answer? a cloud m = some (c, reply)) :
    (f.member a).agent.IsReply m reply := by
  rcases Agent.reply?_eq_some (answer?_eq_some.1 h).1 with ⟨hkind, rfl⟩ | ⟨hkind, rfl⟩
  · exact .inl ⟨hkind, _, rfl⟩
  · exact .inr ⟨hkind, _, rfl⟩

/-- The agent that answers a message when a listener is called. -/
def answerer? (f : Fabric) (m : Message) : Hearer → Option AgentId
  | .recorder _ => none
  | .responder a cloud => if (f.answer? a cloud m).isSome then some a else none

/-- Who answers is a matter of how the agents are and stand. -/
theorem SameWays.answerer? (h : f.SameWays g) : g.answerer? m = f.answerer? m := by
  funext l
  cases l with
  | recorder name => rfl
  | responder a cloud =>
    have hmember : g.member a = f.member a := by rw [member, h.members, member]
    have hsome : (g.answer? a cloud m).isSome = (f.answer? a cloud m).isSome := by
      rw [Bool.eq_iff_iff, isSome_answer?, isSome_answer?, hmember]
    simp only [Fabric.answerer?, hsome]

/-- An answer as it should be from an agent that is attached as in a fabric. -/
def Sound (f : Fabric) (m : Message) (x : Answer) : Prop :=
  (∃ r, (f.member x.agent).standing = .joined x.engine r) ∧
    (f.member x.agent).agent.IsReply m x.message

theorem SameWays.sound {x : Answer} (h : f.SameWays g) (hx : g.Sound m x) : f.Sound m x := by
  have hmember : g.member x.agent = f.member x.agent := by rw [member, h.members, member]
  rwa [Sound, hmember] at hx

theorem agents_answersAt :
    (f.answersAt ⟨.call l m, causes⟩).map Answer.agent = (f.answerer? m l).toList := by
  cases l with
  | recorder name => rfl
  | responder a cloud =>
    simp only [answersAt, Fabric.answerer?]
    cases f.answer? a cloud m <;> rfl

theorem sound_answersAt {x : Answer} (hx : x ∈ f.answersAt ⟨.call l m, causes⟩) : f.Sound m x := by
  cases l with
  | recorder name => exact absurd hx List.not_mem_nil
  | responder a cloud =>
    obtain ⟨⟨c, reply⟩, hanswer, rfl⟩ := List.mem_map.1 hx
    have hanswer := Option.mem_toList.1 hanswer
    exact ⟨(answer?_eq_some.1 hanswer).2, isReply_of_answer? hanswer⟩

/-! ## What an engine brings about -/

/-- A call is answered at once if at all, and what comes of that is no answer to the same message.
-/
theorem direct_call (hnow : Trace answersAt (f.perform ⟨.call l m, []⟩).1
    (f.perform ⟨.call l m, []⟩).2 g answers) : direct answers = [] := by
  refine hnow.direct_of_causes fun u hu => ?_
  cases l with
  | recorder name => exact absurd hu List.not_mem_nil
  | responder a cloud =>
    rw [perform_responder] at hu
    obtain ⟨x, -, rfl⟩ := List.mem_map.1 hu
    exact List.cons_ne_nil _ _

/-- **Listeners are called in turn**, and those answer that have to. -/
theorem direct_calls (htrace : Trace answersAt f (ls.map fun l => ⟨.call l m, []⟩) g answers) :
    (direct answers).map Answer.agent = ls.filterMap (f.answerer? m) ∧
      ∀ x ∈ direct answers, f.Sound m x := by
  constructor
  · rw [htrace.direct_each (fun _ => rfl) direct_call enduring_ways Answer.agent
      fun h _ _ => by rw [agents_answersAt, agents_answersAt, h.answerer?]]
    simp only [agents_answersAt]
    exact (List.filterMap_eq_flatMap_toList _ _).symm
  · intro x hx
    obtain ⟨k, hk, l, -, hx⟩ := htrace.mem_direct (fun _ => rfl) direct_call enduring_ways hx
    exact hk.sound (sound_answersAt hx)

theorem reaction_of_asks {x : Engine} (hm : m.Asks) : x.reaction m = .dispatch := by
  unfold Engine.reaction
  rcases hm with hm | hm <;> rw [hm]

theorem answerer?_of_not_asks (hm : ¬m.Asks) : f.answerer? m l = none := by
  cases l with
  | recorder name => rfl
  | responder a cloud => exact if_neg fun h => hm (isSome_answer?.1 h).1

theorem dispatch_inline {F : Fanout Hearer} (hinline : F.mode = .inline) :
    F.dispatch m = (F, F.audience) := by
  rw [Fanout.dispatch, hinline]

/-- What asks for an answer is answered by the responders of the engine, and nothing else is. -/
theorem direct_react {now : Nat} (hinline : (f.engine e).fanout.mode = .inline)
    (htrace : Trace answersAt (f.reactErrand e m now []).1 (f.reactErrand e m now []).2 g answers) :
    (direct answers).map Answer.agent =
      (if m.Asks then (f.engine e).fanout.audience.filterMap (f.answerer? m) else []) ∧
      ∀ x ∈ direct answers, f.Sound m x := by
  have hways : f.SameWays (f.reactErrand e m now []).1 := ways_reactErrand now
  have hcalls : ∀ {ls : List Hearer},
      (f.reactErrand e m now []).2 = ls.map (fun l => ⟨.call l m, []⟩) →
      (direct answers).map Answer.agent = ls.filterMap (f.answerer? m) ∧
        ∀ x ∈ direct answers, f.Sound m x := by
    intro ls hls
    rw [hls] at htrace
    obtain ⟨hagents, hsound⟩ := direct_calls htrace
    exact ⟨by rw [hagents, hways.answerer?], fun x hx => hways.sound (hsound x hx)⟩
  by_cases hm : m.Asks
  · rw [if_pos hm]
    refine hcalls ?_
    rw [reactErrand, reaction_of_asks hm]
    simp only [dispatchErrand, dispatch_inline hinline]
  · rw [if_neg hm]
    obtain h | ⟨r, -, h⟩ | h := @reactErrand_cases f e m [] now
    · exact @hcalls [] h
    · have hnone : direct answers = [] := by
        rw [h] at htrace
        exact htrace.direct_of_causes (by simp)
      simp [hnone]
    · obtain ⟨hagents, hsound⟩ := hcalls h
      exact ⟨hagents.trans (List.filterMap_eq_nil_iff.2 fun l _ => answerer?_of_not_asks hm), hsound⟩

theorem trace_touch {sender : Identity} {now : Nat}
    (htrace : Trace answersAt f [⟨.touch e sender now, causes⟩] g answers) : answers = [] := by
  cases htrace with
  | cons hnow hlater =>
    cases hnow
    cases hlater
    rfl

/-- **The answers to a message that an engine processes.** If the message is meant for the engine,
they are those of its responders, in their order; otherwise there is none. -/
theorem direct_process (hinline : (f.engine e).fanout.mode = .inline)
    (htrace : Trace answersAt f [⟨.process e m, []⟩] g answers) :
    (direct answers).map Answer.agent =
      (if (f.engine e).admits m ∧ m.Asks then
        (f.engine e).fanout.audience.filterMap (f.answerer? m) else []) ∧
      ∀ x ∈ direct answers, f.Sound m x := by
  have hengine : (f.inspect e m).engine e = f.engine e := Closed.engine_inspect
  have hways : f.SameWays (f.inspect e m) := .inspect
  cases htrace with
  | @cons _ k _ _ _ now later hnow hlater =>
    cases hlater
    simp only [notes, answersAt, List.map_nil, List.nil_append, List.append_nil]
    simp only [perform, hengine] at hnow
    by_cases hadm : (f.engine e).admits m = true
    · simp only [hadm, if_true] at hnow
      obtain ⟨j, first, second, hreact, htouch, rfl⟩ := hnow.split
      obtain rfl := trace_touch htouch
      obtain ⟨hagents, hsound⟩ := direct_react (by rwa [hengine]) hreact
      simp only [List.append_nil, hagents, hengine, hways.answerer?, hadm, true_and]
      exact fun x hx => hways.sound (hsound x hx)
    · simp only [hadm] at hnow
      obtain rfl := trace_touch hnow
      simp [direct, hadm]

end Fabric

/-! ## Whose answers these are -/

namespace Scene

variable {s : Scene} {a : AgentId} {c e : EngineId} {ts : List Turn} {f : Fabric}

/-- Who is on the roll and attached at all is attached to that engine. -/
theorem attachment_of_mem_roll (hf : f.Vacant) (hrun : Run ⟨f, []⟩ ts s) (hup : .shutdown e ∉ ts)
    (hleft : ∀ k a r, s.call k = .leaving a e r → attachment ts a = none) (ha : a ∈ roll e ts)
    (hc : attachment ts a = some c) : c = e := by
  have ho := (orderly_of_vacant hf).run hrun
  have htidy := (tidy_of_vacant hf e).run (orderly_of_vacant hf) hrun hup
  rw [← agents_eq_roll hf hrun hup] at ha
  obtain ⟨⟨r, _⟩, hr, rfl⟩ := List.mem_map.1 ha
  obtain ⟨q, hq⟩ := (joined_iff_attachment hf hrun).2 hc
  have hheld := htidy.held hr fun k hk => by
    rw [hleft k _ _ hk] at hc
    contradiction
  exact hheld.eq ho hq

/-- Who is attached to an engine is on its roll. -/
theorem mem_roll_of_attachment (hf : f.Vacant) (hrun : Run ⟨f, []⟩ ts s) (hup : .shutdown e ∉ ts)
    (ha : attachment ts a = some e) : a ∈ roll e ts := by
  have htidy := (tidy_of_vacant hf e).run (orderly_of_vacant hf) hrun hup
  obtain ⟨r, hr⟩ := (joined_iff_attachment hf hrun).2 ha
  rw [← agents_eq_roll hf hrun hup]
  exact List.mem_map.2 ⟨(r, a), htidy.responders.2 ⟨.agent a, by rw [tie?, hr]; rfl⟩, rfl⟩

/-- The listeners that answer are the responders of those on the roll who are attached and asked. -/
theorem answerers_eq (hf : f.Vacant) (hjourney : Journey ⟨f, []⟩ ts s) (hup : .shutdown e ∉ ts)
    (hleft : ∀ k a r, s.call k = .leaving a e r → attachment ts a = none) {m : Message}
    (hm : m.Asks) : (s.fabric.engine e).fanout.audience.filterMap (s.fabric.answerer? m) =
      (roll e ts).filter fun a => attachment ts a = some e ∧
        (m.recipient = s.identity a ∨ m.recipient = (s.fabric.engine e).identity) := by
  have hrun := hjourney.run
  have hroll : roll e ts = (s.fabric.engine e).fanout.audience.filterMap Hearer.agent? := by
    rw [← agents_eq_roll hf hrun hup, responders, Fanout.responders, Fanout.audience,
      List.map_filterMap, List.filterMap_map]
    refine List.filterMap_congr fun l _ => ?_
    simp only [Function.comp]
    cases l.2.agent? <;> rfl
  have hmem : ∀ {a cloud}, .responder a cloud ∈ (s.fabric.engine e).fanout.audience →
      a ∈ roll e ts := by
    intro a cloud hl
    rw [hroll]
    exact List.mem_filterMap.2 ⟨_, hl, rfl⟩
  conv_rhs => rw [hroll, List.filter_filterMap]
  refine List.filterMap_congr fun l hl => ?_
  cases l with
  | recorder name => rfl
  | responder a cloud =>
    have hcloud := hjourney.frank hf.frank e a cloud hl
    have hattached : (∃ c r, (s.fabric.member a).standing = .joined c r) ↔
        attachment ts a = some e := by
      rw [← joined_iff_attachment hf hrun]
      constructor
      · rintro ⟨c, hc⟩
        have hc' := (joined_iff_attachment hf hrun).1 hc
        rwa [← attachment_of_mem_roll hf hrun hup hleft (hmem hl) hc']
      · exact fun he => ⟨e, he⟩
    have hsome : (s.fabric.answer? a cloud m).isSome ↔ attachment ts a = some e ∧
        (m.recipient = s.identity a ∨ m.recipient = (s.fabric.engine e).identity) := by
      rw [Fabric.isSome_answer?, hattached, hcloud, and_comm (b := attachment ts a = some e)]
      exact and_iff_right hm
    simp only [Fabric.answerer?, Hearer.agent?, hsome, Option.filter, decide_eq_true_eq]

/-! ## An agent that comes again -/

/-- An engine that dispatches inline, and two agents, as they are built. -/
def crew : Fabric :=
  let f := (Fabric.empty 0).addEngine (.cloud (Uuid.ofNat 1))
    { Settings.standard with dispatch := .inline } [] 0 0
  (f.addAgent ⟨.agent (Uuid.ofNat 2), .empty⟩).addAgent ⟨.agent (Uuid.ofNat 3), .empty⟩

theorem vacant_crew : crew.Vacant :=
  ((Fabric.Vacant.empty 0).addEngine.addAgent ⟨.agent (Uuid.ofNat 2), .empty⟩).addAgent
    ⟨.agent (Uuid.ofNat 3), .empty⟩

def signOn (f : Fabric) (a : AgentId) : Fabric :=
  match f.enroll a 0 with
  | .ok f => f.attach a 0
  | .error _ => f

def signsOn (a : AgentId) : List Turn :=
  [.act .settle a 0, .act .subscribe a 0, .act .register a 0, .act .begin a 0]

/-- Both agents join, and the first one leaves and joins again. -/
def comings : List Turn :=
  signsOn 0 ++ [.act .unregister 0 0, .act .unsubscribe 0 0, .act .leave 0 0] ++
    signsOn 1 ++ signsOn 0

theorem journey_crew : ∃ s, Journey ⟨crew, []⟩ comings s ∧
    (s.fabric.engine 0).fanout.mode = .inline ∧
    (s.fabric.engine 0).identity = .cloud (Uuid.ofNat 1) ∧
    (s.fabric.engine 0).admits
      (.discovery default (.agent (Uuid.ofNat 9)) (.cloud (Uuid.ofNat 1))) = true ∧
    ∀ k a r, s.call k ≠ .leaving a 0 r := by
  have hfirst : Run ⟨crew, []⟩ (signsOn 0) ⟨signOn crew 0, [.over]⟩ :=
    (run_enroll (by decide) (by decide) rfl).append (run_attach (k := 0) rfl)
  have hsecond : Run ⟨signOn crew 0, [.over]⟩ (signsOn 1)
      ⟨signOn (signOn crew 0) 1, [.over, .over]⟩ :=
    (run_enroll (by decide) (by decide) rfl).append (run_attach (k := 1) rfl)
  have hleave := ((hfirst.append hsecond).cons (.leave (a := 0) rfl)).cons
    (.unsubscribe (k := 2) rfl) |>.cons (.unregister (k := 2) rfl)
  have hagain := hleave.append
    ((run_enroll (a := 0) (e := 0) (by decide) (by decide) rfl).append (run_attach (k := 3) rfl))
  refine ⟨_, hagain.journey (by decide), rfl, rfl, rfl, fun k a r hk => ?_⟩
  -- All four calls are over.
  rcases k with _ | _ | _ | _ | k <;> cases hk

/-- **Every attached agent answers exactly once.** After any journey on which the engine has not
been shut down, a message that asks is answered by each agent attached to the engine that it is meant
for, and by all of them if it is meant for the engine: once, through the engine, with what the agent
is and has at that moment, and in the order of the latest joins. Nobody else answers it, and what is
not admitted or does not ask is answered by nobody. A leave unsubscribes its responder right after
it has detached the agent; all that is asked of it is that nobody attaches the agent in between. -/
theorem attached_agents_answer_once (hf : f.Vacant) (hjourney : Journey ⟨f, []⟩ ts s)
    (hup : .shutdown e ∉ ts)
    (hleft : ∀ k a r, s.call k = .leaving a e r → attachment ts a = none)
    (hinline : (s.fabric.engine e).fanout.mode = .inline) (m : Message) :
    ∃ answers, Fabric.Trace Fabric.answersAt s.fabric [⟨.process e m, []⟩] (s.fabric.process e m)
        answers ∧
      (∀ a, attachment ts a = some e → a ∈ roll e ts) ∧
      (roll e ts).Nodup ∧ (roll e ts).Pairwise (fun a b => since e b ts < since e a ts) ∧
      (direct answers).map Answer.agent =
        (if (s.fabric.engine e).admits m ∧ m.Asks then
          (roll e ts).filter fun a => attachment ts a = some e ∧
            (m.recipient = s.identity a ∨ m.recipient = (s.fabric.engine e).identity)
        else []) ∧
      ∀ x ∈ direct answers, x.engine = e ∧ (s.fabric.member x.agent).agent.IsReply m x.message := by
  have hrun := hjourney.run
  obtain ⟨answers, htrace⟩ :=
    (Fabric.does_process s.fabric e m []).exists_trace Fabric.answersAt
  obtain ⟨hagents, hsound⟩ := Fabric.direct_process hinline htrace
  refine ⟨answers, htrace, fun a ha => mem_roll_of_attachment hf hrun hup ha,
    nodup_roll hf hrun hup, roll_ordered hf hrun hup, ?_, fun x hx => ?_⟩
  · rw [hagents]
    split
    · next h => exact answerers_eq hf hjourney hup hleft h.2
    · rfl
  · obtain ⟨⟨r, hr⟩, hreply⟩ := hsound x hx
    have hanswers : x.agent ∈ (direct answers).map Answer.agent := List.mem_map_of_mem hx
    rw [hagents] at hanswers
    split at hanswers
    · next h =>
      rw [answerers_eq hf hjourney hup hleft h.2] at hanswers
      have hroll := (List.mem_filter.1 hanswers).1
      have hattached := (joined_iff_attachment hf hrun).1 ⟨r, hr⟩
      exact ⟨attachment_of_mem_roll hf hrun hup hleft hroll hattached, hreply⟩
    · exact absurd hanswers List.not_mem_nil

/-- A stranger asks the crew's cloud who is there. The first agent has come last. -/
theorem attached_agents_answer_once_crew : ∃ s answers, Journey ⟨crew, []⟩ comings s ∧
    Fabric.Trace Fabric.answersAt s.fabric
      [⟨.process 0 (.discovery default (.agent (Uuid.ofNat 9)) (.cloud (Uuid.ofNat 1))), []⟩]
      (s.fabric.process 0 (.discovery default (.agent (Uuid.ofNat 9)) (.cloud (Uuid.ofNat 1))))
      answers ∧
    (direct answers).map Answer.agent = [1, 0] := by
  obtain ⟨s, hjourney, hinline, hidentity, hadmits, hstays⟩ := journey_crew
  obtain ⟨answers, htrace, -, -, -, hagents, -⟩ := attached_agents_answer_once (e := 0) vacant_crew
    hjourney (by decide) (fun k a r hk => absurd hk (hstays k a r)) hinline
    (.discovery default (.agent (Uuid.ofNat 9)) (.cloud (Uuid.ofNat 1)))
  refine ⟨s, answers, hjourney, htrace, hagents.trans ?_⟩
  rw [if_pos ⟨hadmits, .inl rfl⟩, hidentity]
  simp only [Message.discovery, Message.plain, or_true, and_true]
  decide

end Scene

end Overlay
