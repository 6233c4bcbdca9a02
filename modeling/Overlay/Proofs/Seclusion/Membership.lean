import Mathlib.Data.List.Infix
import Overlay.Fabric.Membership
import Overlay.Proofs.History
import Overlay.Proofs.Seclusion.Visits

/-!
# Membership follows what comes in

An engine that knows nobody, is secluded and delivers at once is handed messages, with its clock at
whatever it shows. Whether a message is meant for it depends on whom it knows at that moment, and
that depends on the messages before.

Everything that can be told of the engine afterwards is told by that history
(`membership_follows_history`): whom it knows and where, when it heard of them last, what its
recorders have noted, and whom it has asked who they are.
-/

namespace Overlay

/-! ## The contact of an identity -/

namespace Directory

variable {d : Directory} {i j : Identity} {eps : EndpointSet} {now : Nat}

def known? (d : Directory) (i : Identity) : Option Contact :=
  (d.remote? i).map d.contact

theorem isRemote_iff_known? : d.isRemote i = true ↔ ∃ c, d.known? i = some c := by
  rw [isRemote_iff]
  simp [known?]

theorem Sound.identity_known? (h : d.Sound) {c : Contact} (hc : d.known? i = some c) :
    c.identity = i := by
  obtain ⟨s, hs, rfl⟩ := Option.map_eq_some_iff.1 hc
  exact h.identity hs

theorem Sound.known?_announce (h : d.Sound) : (d.announce i eps now).known? j =
    if j = i then some ((d.known? i).elim ⟨i, eps, now⟩ (·.refreshed eps now))
    else d.known? j := by
  unfold known?
  split
  · next hj =>
    subst hj
    have hself : (d.announce j eps now).remote? j = some ((d.remote? j).getD d.slots.length) := by
      simp [remote?_announce]
    rw [hself, Option.map_some, contact_announce_self h hself]
    cases d.remote? j <;> rfl
  · next hj =>
    rw [remote?_announce, if_neg hj]
    cases hs : d.remote? j with
    | none => rfl
    | some s =>
      have hne : d.remote? i ≠ some s := fun hi => hj (h.remote?_inj hs hi)
      rw [Option.map_some, contact_announce_ne h (h.exists_slot hs) hne, Option.map_some]

theorem known?_removeRemote : (d.removeRemote i).known? j = if j = i then none else d.known? j := by
  unfold known?
  rw [remote?_removeRemote]
  split <;> rfl

theorem Sound.known?_touch (h : d.Sound) (i j : Identity) (now : Nat) : (d.touch i now).known? j =
    if j = i then (d.known? j).map (·.seen now) else d.known? j := by
  unfold known?
  rw [remote?_touch]
  cases hs : d.remote? j with
  | none => simp
  | some s =>
    rw [Option.map_some, contact_touch h]
    by_cases hj : j = i
    · simp [← hj, hs]
    · have hne : d.remote? i ≠ some s := fun hi => hj (h.remote?_inj hs hi)
      simp [hj, hne]

end Directory

/-! ## One message -/

namespace Engine

variable {x : Engine} {m : Message} {now : Nat} {i : Identity}

/-- What an engine learns from a message about its sender: whether that has arrived or left. -/
def learns (x : Engine) (m : Message) : Option MembershipChange :=
  if x.admits m && m.kind == .presence then m.payload.membershipChange else none

theorem informed_eq : x.informed m =
    match x.learns m with
    | some change => x.changed m.sender change x.clock
    | none => x := by
  unfold informed learns reaction
  cases x.admits m <;> cases m.kind <;> simp
  · cases m.payload.membershipChange <;> rfl
  · cases x.directory.isRemote m.sender <;> rfl

def updated (c : Option Contact) (i : Identity) (now : Nat) : Option MembershipChange → Option Contact
  | some (.arrival eps) => some ((c.elim ⟨i, eps, now⟩ (·.refreshed eps now)).seen now)
  | some .departure => none
  | none => c.map (·.seen now)

theorem sound_visited (h : x.directory.Sound) : (x.visited now m).directory.Sound := by
  rw [visited, informed_eq]
  refine Directory.Sound.touch ?_
  split
  · next change _ =>
    cases change with
    | arrival eps => exact h.announce
    | departure => exact h.removeRemote
  · exact h

/-- A message says something about its sender and about nobody else. -/
theorem known?_visited (h : x.directory.Sound) : (x.visited now m).directory.known? i =
    if i = m.sender then updated (x.directory.known? i) i now (x.learns m)
    else x.directory.known? i := by
  rw [visited, informed_eq]
  have hlearns : ({ x with clock := now } : Engine).learns m = x.learns m := rfl
  rw [hlearns]
  cases x.learns m with
  | none =>
    rw [touched, h.known?_touch]
    rfl
  | some change =>
    cases change with
    | arrival eps =>
      have hsound : (x.directory.announce m.sender eps now).Sound := h.announce
      have htouch := hsound.known?_touch m.sender i now
      rw [h.known?_announce] at htouch
      refine htouch.trans ?_
      by_cases hi : i = m.sender
      · subst hi
        simp [updated]
      · simp [hi]
    | departure =>
      have hsound : (x.directory.removeRemote m.sender).Sound := h.removeRemote
      have htouch := hsound.known?_touch m.sender i now
      rw [Directory.known?_removeRemote] at htouch
      refine htouch.trans ?_
      by_cases hi : i = m.sender <;> simp [hi, updated]

end Engine

/-! ## All messages -/

namespace Fabric

variable {f g : Fabric} {e : EngineId} {m : Message} {name : String} {i : Identity}
  {group : EngineId → Prop} {visits pre post : List (Nat × Message)} {v : Nat × Message}

/-- What has been handed to an engine, the oldest first. -/
def handed (e : EngineId) (f : Fabric) (visits : List (Nat × Message)) : Fabric :=
  visits.foldl (visit e) f

/-- An engine as it was when a message was handed to it. -/
def meets (e : EngineId) (f : Fabric) (pre : List (Nat × Message)) : Engine :=
  (f.handed e pre).engine e

/-- What the engine has learned about an identity. -/
def news (e : EngineId) (f : Fabric) (i : Identity) (visits : List (Nat × Message)) :
    List MembershipChange :=
  (moments [] visits).filterMap fun x =>
    if x.2.1.2.sender = i then (f.meets e x.1).learns x.2.1.2 else none

def signs (i : Identity) (visits : List (Nat × Message)) : List Nat :=
  (visits.filter (·.2.sender = i)).map (·.1)

/-- The messages that were for listeners and meant for the engine when they were handed to it. -/
def passedOn (e : EngineId) (f : Fabric) (visits : List (Nat × Message)) : List Message :=
  (moments [] visits).filterMap fun x =>
    if (f.meets e x.1).passesOn x.2.1.2 then some x.2.1.2 else none

/-- A secluded engine that delivers at once. -/
structure Poised (f : Fabric) (e : EngineId) (group : EngineId → Prop) : Prop extends
    f.Secluded e group where
  exists_engine : e < f.engines.length
  inline : (f.engine e).fanout.mode = .inline

theorem handed_concat : f.handed e (visits ++ [v]) = visit e (f.handed e visits) v := by
  simp [handed]

/-- What a poised engine does with one message. -/
theorem Poised.visit (h : f.Poised e group) (v : Nat × Message) :
    (Fabric.visit e f v).Poised e group ∧
    (Fabric.visit e f v).engine e = (f.engine e).visited v.1 v.2 ∧
    (∀ name, .recorder name ∈ (f.engine e).fanout.audience →
      (Fabric.visit e f v).noted name = f.noted name ++
        if (f.engine e).passesOn v.2 then
          List.replicate ((f.engine e).fanout.audience.count (.recorder name)) v.2
        else []) ∧
    ∃ said uuid, Runs e (f.setClock e v.1) [⟨.process e v.2, []⟩] (Fabric.visit e f v) said ∧
      said.filter (·.kind = .discovery) =
        if (f.engine e).asks v.2 then [.discovery uuid (f.engine e).identity v.2.sender] else [] := by
  obtain ⟨now, m⟩ := v
  have hclock : (f.setClock e now).engine e = { f.engine e with clock := now } :=
    engine_setEngine_self _ h.exists_engine
  have hways : f.SameWays (f.setClock e now) := .setEngine rfl rfl
  obtain ⟨said, hrun, htaken⟩ := exists_taken_process (h.toSecluded.of_ways hways)
    (by rw [hclock]; exact h.inline) (by rw [hways.length]; exact h.exists_engine) m
  have hall : f.SameWays (Fabric.visit e f (now, m)) := hways.trans hrun.ways
  have hengine := htaken.engine
  have hnoted := htaken.noted
  obtain ⟨uuid, hasked⟩ := htaken.asked
  rw [hclock] at hengine hnoted hasked
  have hvisited : (Fabric.visit e f (now, m)).engine e = (f.engine e).visited now m := hengine
  refine ⟨⟨h.toSecluded.of_ways hall, ?_, ?_⟩, hvisited, hnoted, said, uuid, hrun, hasked⟩
  · rw [hall.length]
    exact h.exists_engine
  · rw [hvisited, Engine.fanout_visited]
    exact h.inline

theorem Poised.handed (h : f.Poised e group) (visits : List (Nat × Message)) :
    (f.handed e visits).Poised e group := by
  induction visits using List.reverseRecOn with
  | nil => exact h
  | append_singleton visits v ih => exact handed_concat ▸ (ih.visit v).1

theorem Poised.engine_concat (h : f.Poised e group) :
    f.meets e (visits ++ [v]) = (f.meets e visits).visited v.1 v.2 := by
  rw [meets, handed_concat, ((h.handed visits).visit v).2.1, meets]

theorem Poised.fanout (h : f.Poised e group) :
    (f.meets e visits).fanout = (f.engine e).fanout ∧
      (f.meets e visits).identity = (f.engine e).identity := by
  induction visits using List.reverseRecOn with
  | nil => exact ⟨rfl, rfl⟩
  | append_singleton visits v ih => simpa [h.engine_concat] using ih

theorem Poised.sound (h : f.Poised e group) (hsound : (f.engine e).directory.Sound) :
    (f.meets e visits).directory.Sound := by
  induction visits using List.reverseRecOn with
  | nil => exact hsound
  | append_singleton visits v ih =>
    rw [h.engine_concat]
    exact Engine.sound_visited ih

theorem Poised.known?_concat (h : f.Poised e group) (hsound : (f.engine e).directory.Sound) :
    (f.meets e (visits ++ [v])).directory.known? i =
      if i = v.2.sender then
        Engine.updated ((f.meets e visits).directory.known? i) i v.1 ((f.meets e visits).learns v.2)
      else (f.meets e visits).directory.known? i := by
  rw [h.engine_concat, Engine.known?_visited (h.sound hsound)]

theorem news_concat : f.news e i (visits ++ [v]) = f.news e i visits ++
    (if v.2.sender = i then (f.meets e visits).learns v.2 else none).toList := by
  unfold news
  rw [moments_concat, List.filterMap_append, List.filterMap_map]
  cases h : (if v.2.sender = i then (f.meets e visits).learns v.2 else none) <;> simp [h]

theorem passedOn_concat : f.passedOn e (visits ++ [v]) = f.passedOn e visits ++
    if (f.meets e visits).passesOn v.2 then [v.2] else [] := by
  unfold passedOn
  rw [moments_concat, List.filterMap_append, List.filterMap_map]
  cases h : (f.meets e visits).passesOn v.2 <;> simp [h]

theorem known?_of_nobody {d : Directory} (h : d.remotes = .empty) (i : Identity) :
    d.known? i = none := by
  simp [Directory.known?, Directory.remote?, h]

theorem sound_of_nobody {d : Directory} (h : d.remotes = .empty) : d.Sound :=
  ⟨by simp [Directory.remote?, h], by simp [Directory.remote?, h]⟩

/-- Whom an engine knows, and where, is what it has learned last. -/
theorem Poised.known_endpoints (h : f.Poised e group)
    (hnobody : (f.engine e).directory.remotes = .empty) (visits : List (Nat × Message))
    (i : Identity) :
    ((f.meets e visits).directory.known? i).map (·.endpoints) =
      match (f.news e i visits).getLast? with
      | some (.arrival eps) => some eps
      | _ => none := by
  have hsound := sound_of_nobody hnobody
  induction visits using List.reverseRecOn with
  | nil => simp [meets, Fabric.handed, known?_of_nobody hnobody, news, moments]
  | append_singleton visits v ih =>
    rw [h.known?_concat hsound, news_concat]
    by_cases hi : i = v.2.sender
    · cases hlearns : (f.meets e visits).learns v.2 with
      | none => simpa [hi, Engine.updated, Function.comp_def, Contact.seen] using hi ▸ ih
      | some change =>
        cases change with
        | arrival eps =>
          cases (f.meets e visits).directory.known? i <;>
            simp [hi, Engine.updated, Contact.seen, Contact.refreshed]
        | departure => simp [hi, Engine.updated]
    · simpa [hi, Ne.symm hi] using ih

theorem signs_concat : signs i (visits ++ [v]) =
    signs i visits ++ if i = v.2.sender then [v.1] else [] := by
  by_cases hi : i = v.2.sender
  · simp [signs, hi]
  · simp [signs, hi, Ne.symm hi]

theorem max?_concat {times : List Nat} {latest now : Nat} (h : times.max? = some latest) :
    (times ++ [now]).max? = some (max latest now) := by
  cases times with
  | nil => cases h
  | cons time times =>
    rw [List.max?_cons'] at h
    rw [List.cons_append, List.max?_cons', List.foldl_append, ← Option.some.inj h]
    rfl

/-- A contact has been heard of last at the latest of the times at which something came from its
identity, from the moment on at which that became known. -/
theorem Poised.known_lastSeen (h : f.Poised e group) (hsound : (f.engine e).directory.Sound)
    (hnew : (f.meets e pre).directory.isRemote i = false)
    (hstays : ∀ later, later <+: post → (f.meets e (pre ++ v :: later)).directory.isRemote i = true) :
    ∃ c, (f.meets e (pre ++ v :: post)).directory.known? i = some c ∧
      (signs i (v :: post)).max? = some c.lastSeen := by
  induction post using List.reverseRecOn with
  | nil =>
    -- Only an arrival makes an identity known.
    have hknown := hstays [] (List.prefix_refl _)
    have hunknown : (f.meets e pre).directory.known? i = none := by
      simp [Directory.known?, Directory.remote?_eq_none hnew]
    rw [Directory.isRemote_iff_known?] at hknown
    obtain ⟨c, hc⟩ := hknown
    refine ⟨c, hc, ?_⟩
    rw [h.known?_concat hsound, hunknown] at hc
    by_cases hi : i = v.2.sender
    · cases hlearns : (f.meets e pre).learns v.2 with
      | none => simp [hi, hlearns, Engine.updated] at hc
      | some change =>
        cases change with
        | arrival eps =>
          simp only [hi, hlearns, Engine.updated, if_true, Option.elim, Option.some.injEq] at hc
          simp [signs, hi, ← hc, Contact.seen]
        | departure => simp [hi, hlearns, Engine.updated] at hc
    · simp [hi] at hc
  | append_singleton post w ih =>
    obtain ⟨c, hc, hmax⟩ := ih fun later hlater => hstays later (hlater.trans (List.prefix_append _ _))
    have hknown := hstays (post ++ [w]) (List.prefix_refl _)
    rw [Directory.isRemote_iff_known?] at hknown
    obtain ⟨c', hc'⟩ := hknown
    refine ⟨c', hc', ?_⟩
    rw [show pre ++ v :: (post ++ [w]) = (pre ++ v :: post) ++ [w] by simp,
      h.known?_concat hsound, hc] at hc'
    rw [← List.cons_append, signs_concat]
    by_cases hi : i = w.2.sender
    · rw [if_pos hi] at hc' ⊢
      rw [max?_concat hmax]
      cases hlearns : (f.meets e (pre ++ v :: post)).learns w.2 with
      | none =>
        simp only [hlearns, Engine.updated, Option.map_some, Option.some.injEq] at hc'
        simp [← hc', Contact.seen]
      | some change =>
        cases change with
        | arrival eps =>
          simp only [hlearns, Engine.updated, Option.elim, Option.some.injEq] at hc'
          simp [← hc', Contact.seen, Contact.refreshed]
        | departure => simp [hlearns, Engine.updated] at hc'
    · rw [if_neg hi] at hc' ⊢
      rw [List.append_nil, hmax, Option.some.inj hc']

/-- The recorders of an engine have noted what was passed on to them. -/
theorem Poised.noted_handed (h : f.Poised e group)
    (hname : .recorder name ∈ (f.engine e).fanout.audience) :
    (f.handed e visits).noted name = f.noted name ++ (f.passedOn e visits).flatMap
      (List.replicate ((f.engine e).fanout.audience.count (.recorder name))) := by
  induction visits using List.reverseRecOn with
  | nil => simp [Fabric.handed, passedOn, moments]
  | append_singleton visits v ih =>
    have hfanout : ((f.handed e visits).engine e).fanout = (f.engine e).fanout := h.fanout.1
    have hnoted := ((h.handed visits).visit v).2.2.1 name (by rw [hfanout]; exact hname)
    rw [handed_concat, hnoted, ih, passedOn_concat, hfanout, ← meets]
    cases (f.meets e visits).passesOn v.2 <;> simp

/-- **Membership follows what comes in.** An engine that knows nobody, hears nothing of what it
sends and delivers at once is handed messages, with its clock at whatever it shows. Then it knows
those of whom it has learned last that they have arrived, with the endpoints of that message. It has
heard of each of them last at the latest of the times at which it was handed a message of theirs,
meant for it or not, since they became known. Its recorders have noted, once for each of their
subscriptions and in order, the messages that were for listeners and meant for the engine. And it
has asked the senders of those pongs that were meant for it and came from somebody whom it did not
know, each once. -/
theorem membership_follows_history (h : f.Poised e group)
    (hnobody : (f.engine e).directory.remotes = .empty) (visits : List (Nat × Message)) :
    (∀ i, ((f.meets e visits).directory.isRemote i = true ↔
        ∃ eps, (f.news e i visits).getLast? = some (.arrival eps)) ∧
      ∀ c, (f.meets e visits).directory.known? i = some c →
        c.identity = i ∧ (f.news e i visits).getLast? = some (.arrival c.endpoints)) ∧
    (∀ pre v post i, visits = pre ++ v :: post → (f.meets e pre).directory.isRemote i = false →
      (∀ later, later <+: post → (f.meets e (pre ++ v :: later)).directory.isRemote i = true) →
      ∃ c, (f.meets e visits).directory.known? i = some c ∧
        (signs i (v :: post)).max? = some c.lastSeen) ∧
    (∀ name, .recorder name ∈ (f.engine e).fanout.audience →
      (f.handed e visits).noted name = f.noted name ++ (f.passedOn e visits).flatMap
        (List.replicate ((f.engine e).fanout.audience.count (.recorder name)))) ∧
    ∀ pre now m post, visits = pre ++ (now, m) :: post → ∃ said uuid,
      Runs e ((f.handed e pre).setClock e now) [⟨.process e m, []⟩] (f.handed e (pre ++ [(now, m)]))
        said ∧
      said.filter (·.kind = .discovery) =
        if (f.meets e pre).asks m then [.discovery uuid (f.engine e).identity m.sender] else [] := by
  have hsound := sound_of_nobody hnobody
  refine ⟨fun i => ?_, ?_, fun name hname => h.noted_handed hname, ?_⟩
  · have hknown := h.known_endpoints hnobody visits i
    constructor
    · rw [Directory.isRemote_iff_known?]
      constructor
      · rintro ⟨c, hc⟩
        rw [hc] at hknown
        split at hknown
        · next eps hlast => exact ⟨eps, hlast⟩
        · cases hknown
      · rintro ⟨eps, hlast⟩
        rw [hlast] at hknown
        obtain ⟨c, hc, -⟩ := Option.map_eq_some_iff.1 hknown
        exact ⟨c, hc⟩
    · intro c hc
      refine ⟨(h.sound hsound).identity_known? hc, ?_⟩
      rw [hc] at hknown
      split at hknown
      · next eps hlast =>
        rw [hlast, ← Option.some.inj hknown]
      · cases hknown
  · rintro pre v post i rfl hnew hstays
    exact h.known_lastSeen hsound hnew hstays
  · rintro pre now m post rfl
    obtain ⟨said, uuid, hrun, hasked⟩ := ((h.handed pre).visit (now, m)).2.2.2
    refine ⟨said, uuid, handed_concat ▸ hrun, ?_⟩
    rw [hasked, ← meets, h.fanout.2]

/-- An engine with a recorder and an agent, behind whose gateway there is nobody. -/
def outpost : Fabric :=
  let settings : Settings := ⟨.ofMillis 10000, 3, .ofMillis 200, .inline⟩
  let f := (((empty 0).addSink "out" (some .unknown)).addBoard .never).addEngine (.cloud default)
    settings [0] 0 0
  let f := (f.listen 0 "log").addAgent ⟨.agent (.ofNat 1), .empty⟩
  (f.setDirectory 0 (((f.engine 0).directory.insertLocal? (.agent (.ofNat 1)) 0).getD .empty)).attach
    0 0

theorem poised_outpost : outpost.Poised 0 fun _ => False where
  outside := id
  hears := by
    rintro d x c (rfl | hd) hx hc
    · obtain rfl := List.mem_singleton.1 hx
      exact absurd hc List.not_mem_nil
    · exact hd.elim
  answers := by
    rintro d a cloud c s (rfl | hd) ha hstands
    · obtain rfl : a = 0 := by
        have ha' : Hearer.responder a cloud ∈
          [Hearer.recorder "log", .responder 0 (.cloud default)] := ha
        simp at ha'
        exact ha'.1
      exact .inl (Standing.joined.inj hstands).1.symm
    · exact hd.elim
  recorders := fun hd => hd.elim
  exists_engine := by decide
  inline := rfl

/-- Somebody answers before having arrived, arrives, asks the agent, and sends to itself at last. -/
def stranger : List (Nat × Message) :=
  let i := Identity.agent (.ofNat 7)
  [(5, .pong default i (.cloud default)), (9, .presence default i (.cloud default) .empty),
    (7, .discovery default i (.agent (.ofNat 1))), (8, .enquiry default i i i)]

theorem membership_follows_history_outpost :
    (outpost.meets 0 stranger).directory.isRemote (.agent (.ofNat 7)) = true ∧
    (∃ c, (outpost.meets 0 stranger).directory.known? (.agent (.ofNat 7)) = some c ∧
      c.lastSeen = 9) ∧
    (outpost.handed 0 stranger).noted "log" =
      [.discovery default (.agent (.ofNat 7)) (.agent (.ofNat 1))] ∧
    ∃ said uuid,
      Runs 0 (outpost.setClock 0 5)
        [⟨.process 0 (.pong default (.agent (.ofNat 7)) (.cloud default)), []⟩]
        (outpost.handed 0 (stranger.take 1)) said ∧
      said.filter (·.kind = .discovery) =
        [.discovery uuid (.cloud default) (.agent (.ofNat 7))] := by
  obtain ⟨hknown, hseen, hnoted, hasked⟩ := membership_follows_history poised_outpost rfl stranger
  refine ⟨(hknown _).1.2 ⟨.empty, rfl⟩, ?_, ?_, ?_⟩
  · have hall : ∀ later ∈ (stranger.drop 2).inits,
        (outpost.meets 0 (stranger.take 2 ++ later)).directory.isRemote (.agent (.ofNat 7)) = true := by
      decide
    obtain ⟨c, hc, hmax⟩ := hseen (stranger.take 1) _ (stranger.drop 2) (.agent (.ofNat 7)) rfl
      (by decide) fun later hlater => hall later ((List.mem_inits _ _).2 hlater)
    exact ⟨c, hc, Option.some.inj (hmax.symm.trans (by decide))⟩
  · exact hnoted "log" (by decide)
  · exact hasked [] 5 _ _ rfl

end Fabric

end Overlay
