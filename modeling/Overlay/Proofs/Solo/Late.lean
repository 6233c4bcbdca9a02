import Overlay.Proofs.Solo.Waits

/-!
# Messages that are delivered late

An engine with a worker lets threads go on that are ready before it delivers what waits for the
listeners, and one without a worker has delivered that before. So an agent whose wait is over has its
responder when the message is delivered, or has none yet. That makes no difference if it has no
answer to the message but to draw an identifier (`Harmless.settle_seat`). Nobody answers faults; what
else waits while a thread is ready is the one message that has confirmed it.
-/

namespace Overlay

namespace Solo

variable {u v w : Solo} {ts : List Thread} {t : ThreadId} {j : Join} {d : Nat} {a : AgentId}
  {rest : List Task} {m : Message} {l : Hearer} {first : Nat} {ds : Draws} {waiting : List Message}

/-! ## Even states -/

/-- Two states differ at most in what is left behind on sessions that count no longer. -/
def Even (v w : Solo) : Prop :=
  ∃ lobby, v.lobby.Even lobby ∧ w = { v with lobby := lobby }

namespace Even

theorem refl (v : Solo) : v.Even v := ⟨v.lobby, .refl _, rfl⟩

theorem trans (h : u.Even v) (h' : v.Even w) : u.Even w := by
  obtain ⟨lobby, hlobby, rfl⟩ := h
  obtain ⟨lobby', hlobby', rfl⟩ := h'
  exact ⟨lobby', hlobby.trans hlobby', rfl⟩

theorem call (h : v.Even w) (m : Message) (l : Hearer) : (v.call m l).Even (w.call m l) := by
  obtain ⟨lobby, hlobby, rfl⟩ := h
  cases l with
  | recorder name => exact ⟨lobby, hlobby, rfl⟩
  | responder a cloud =>
    have hmember : member { v with lobby := lobby } a = v.member a := rfl
    have huuid : (fresh { v with lobby := lobby }).1 = v.fresh.1 := rfl
    simp only [Solo.call, hmember, huuid]
    split
    · exact ⟨_, hlobby.inspect fun _ => rfl, rfl⟩
    · exact ⟨lobby, hlobby, rfl⟩

theorem foldl_call (h : v.Even w) (m : Message) (audience : List Hearer) :
    (audience.foldl (Solo.call m) v).Even (audience.foldl (Solo.call m) w) := by
  induction audience generalizing v w with
  | nil => exact h
  | cons l audience ih => exact ih (h.call m l)

theorem drawn (h : v.Even w) (k : Nat) : (v.drawn k).Even (w.drawn k) := by
  obtain ⟨lobby, hlobby, rfl⟩ := h
  exact ⟨lobby, hlobby, rfl⟩

end Even

theorem Like.even (h : Like first ds v w) (hu : w.Even u) : Like first ds v u := by
  obtain ⟨lobby, hlobby, rfl⟩ := hu
  exact { h with lobby := h.lobby.trans hlobby }

theorem Like.seat (h : Like first ds v w) (j : Join) (t : ThreadId) :
    Like first ds (v.seat j t) (w.seat j t) := by
  have hdismissed : Like first ds { v with lobby := v.lobby.dismiss t j.session }
      { w with lobby := w.lobby.dismiss t j.session } :=
    { h with
      blind := h.blind
      lobby := h.lobby.dismiss t j.session }
  exact hdismissed.attach j.agent

/-! ## Listeners -/

/-- A listener is called before an agent is attached or after it. -/
theorem seat_call (hl : ∀ cloud, l ≠ .responder j.agent cloud)
    (hreleased : v.lobby.Released t j.session) :
    ((v.call m l).seat j t).Even ((v.seat j t).call m l) := by
  cases l with
  | recorder name => exact .refl _
  | responder a cloud =>
    have hne : a ≠ j.agent := by
      rintro rfl
      exact hl cloud rfl
    have hmember : (v.seat j t).member a = v.member a := member_attach_ne hne
    have huuid : (v.seat j t).fresh.1 = v.fresh.1 := rfl
    simp only [call, hmember, huuid]
    split
    · exact ⟨_, hreleased.dismiss_inspect _, rfl⟩
    · exact .refl _

theorem released_call (h : v.lobby.Released t j.session) (m : Message) (l : Hearer) :
    (v.call m l).lobby.Released t j.session := by
  cases l with
  | recorder name => exact h
  | responder a cloud =>
    simp only [call]
    split
    · exact h.inspect _
    · exact h

theorem seat_foldl_call {audience : List Hearer}
    (hl : ∀ cloud, Hearer.responder j.agent cloud ∉ audience)
    (hreleased : v.lobby.Released t j.session) :
    ((audience.foldl (call m) v).seat j t).Even (audience.foldl (call m) (v.seat j t)) := by
  induction audience generalizing v with
  | nil => exact .refl _
  | cons l audience ih =>
    have hnow : ((v.call m l).seat j t).Even ((v.seat j t).call m l) :=
      seat_call (fun cloud hsame => hl cloud (hsame ▸ List.mem_cons_self)) hreleased
    exact (ih (fun cloud hmem => hl cloud (List.mem_cons_of_mem l hmem))
      (released_call hreleased m l)).trans (hnow.foldl_call m audience)

/-- An agent has no answer to a message. -/
def Mute (v : Solo) (a : AgentId) (m : Message) : Prop :=
  ∀ uuid, (v.member a).agent.reply? v.engine.identity uuid m = none

/-- A message is delivered before an agent is attached that has no answer to it, or after that. -/
theorem seat_deliver (hl : ∀ cloud, Hearer.responder j.agent cloud ∉ v.engine.fanout.audience)
    (hreleased : v.lobby.Released t j.session) (hmute : v.Mute j.agent m) :
    (((v.deliver m).seat j t).drawn 1).Even ((v.seat j t).deliver m) := by
  have haudience : (v.seat j t).engine.fanout.audience =
      v.engine.fanout.audience ++ [.responder j.agent v.engine.identity] := by
    simp [seat, attach, setStanding, setFanout, Fanout.subscribe, Fanout.audience]
  obtain ⟨w, hw⟩ : ∃ w, w = v.engine.fanout.audience.foldl (call m) (v.seat j t) := ⟨_, rfl⟩
  have hstays : (v.seat j t).Stays w := hw ▸ stays_foldl_call _
  have hagent : (w.member j.agent).agent = (v.member j.agent).agent := by
    rw [member, hstays.members]
    exact agent_setStanding
  -- The new responder comes last, and draws an identifier for no answer.
  have hsilent : w.call m (.responder j.agent v.engine.identity) = w.drawn 1 := by
    have hreply : (v.member j.agent).agent.reply? v.engine.identity w.fresh.1 m = none := hmute _
    simp only [call, hagent, hreply]
    rfl
  have hdelivered : (v.seat j t).deliver m = w.drawn 1 := by
    rw [deliver, haudience, List.foldl_append, ← hw, List.foldl_cons, List.foldl_nil, hsilent]
  have heven : ((v.deliver m).seat j t).Even w := hw ▸ seat_foldl_call hl hreleased
  rw [hdelivered]
  exact heven.drawn 1

/-! ## Faults -/

theorem seat_noted : (v.noted m).seat j t = (v.seat j t).noted m := by
  have haudience : (v.seat j t).engine.fanout.audience.filterMap (note? m) =
      v.engine.fanout.audience.filterMap (note? m) := by
    simp [seat, attach, setStanding, setFanout, Fanout.subscribe, Fanout.audience, note?]
  rw [noted, noted, haudience]
  rfl

theorem seat_allNoted : (v.allNoted waiting).seat j t = (v.seat j t).allNoted waiting := by
  unfold allNoted
  induction waiting generalizing v with
  | nil => rfl
  | cons m waiting ih => rw [List.foldl_cons, ih, seat_noted, List.foldl_cons]

/-- Faults are delivered before an agent is attached or after it. -/
theorem seat_faults (h : ∀ m ∈ waiting, m.kind = .fault) :
    ((v.settle waiting).seat j t).drawn waiting.length = (v.seat j t).settle waiting := by
  have hone : (v.seat j t).respondents = v.respondents + 1 := by
    simp [respondents, seat, attach, setStanding, setFanout, Fanout.subscribe, Fanout.audience, note?]
  have hdrawn : ∀ (w : Solo) (k : Nat), (w.drawn k).seat j t = (w.seat j t).drawn k := fun _ _ => rfl
  rw [settle_faults h, settle_faults h, hone, hdrawn, drawn_drawn, seat_allNoted, Nat.mul_succ]

/-! ## Messages that wait -/

/-- What waits for the listeners makes no difference to the threads that are ready, nor they to it. -/
structure Harmless (ts : List Thread) (v : Solo) (waiting : List Message) : Prop where
  liveness : .liveness 0 ∈ v.lobby.ready → waiting = []
  messages : (∀ m ∈ waiting, m.kind = .fault) ∨ ∃ m, waiting = [m] ∧
    ∀ {t}, .thread t ∈ v.lobby.ready → t ∈ v.lobby.confirmed ∧
      ∀ {j d}, Joins ts t j d → v.Mute j.agent m

/-- **It makes no difference whether what waits for the listeners is delivered before the agent of a
thread whose turn it is is attached, or after it.** -/
theorem Harmless.settle_seat (h : Harmless ts v waiting) (hv : v.Orderly ts) (ht : Joins ts t j d)
    (hready : v.lobby.ready = .thread t :: rest) :
    ∃ k, (((v.settle waiting).seat j t).drawn k).Even ((v.seat j t).settle waiting) := by
  rcases h.messages with hfaults | ⟨m, rfl, hover⟩
  case inl => exact ⟨waiting.length, seat_faults hfaults ▸ .refl _⟩
  case inr =>
    obtain ⟨hconfirmed, hmute⟩ := hover (hready ▸ List.mem_cons_self)
    refine ⟨1, seat_deliver (fun cloud hl => ?_) ?_ (hmute ht)⟩
    case refine_1 =>
      obtain ⟨⟨n, l⟩, hl, rfl⟩ := List.mem_map.1 hl
      have hstands := hv.responders hl
      rw [(hv.joining ht).2] at hstands
      cases hstands
    case refine_2 => exact hv.lobby.releasedAt hready ⟨j, ht, rfl⟩ hconfirmed

theorem lobby_settle (waiting : List Message) :
    ∃ ms : List Message, (v.settle waiting).lobby = ms.foldl Lobby.inspect v.lobby :=
  stays_settle.lobby

theorem lobby_faults (h : ∀ m ∈ waiting, m.kind = .fault) : (v.settle waiting).lobby = v.lobby := by
  rw [settle_faults h]
  unfold allNoted
  induction waiting generalizing v with
  | nil => rfl
  | cons m waiting ih => exact ih (v := v.noted m) fun n hn => h n (List.mem_cons_of_mem m hn)

/-- Whether a thread whose turn it is has been confirmed does not depend on what waits. -/
theorem Harmless.confirmed_settle (h : Harmless ts v waiting)
    (hready : v.lobby.ready = .thread t :: rest) :
    t ∈ (v.settle waiting).lobby.confirmed ↔ t ∈ v.lobby.confirmed := by
  rcases h.messages with hfaults | ⟨m, rfl, hover⟩
  case inl => rw [lobby_faults hfaults]
  case inr =>
    have hconfirmed := (hover (hready ▸ List.mem_cons_self)).1
    obtain ⟨ms, hms⟩ := lobby_settle (v := v) [m]
    rw [hms]
    exact ⟨fun _ => hconfirmed, fun _ => Lobby.confirmed_foldl_inspect hconfirmed ms⟩

/-- When the thread whose turn it is has been seated, the others are as they were. -/
theorem Harmless.seat {outcome : Outcome} (h : Harmless ts v waiting) (ht : Joins ts t j d)
    (hready : v.lobby.ready = .thread t :: rest) (hnodup : v.lobby.ready.Nodup) :
    Harmless (ts.set t (.ended outcome)) (v.seat j t) waiting := by
  have hrest : (v.seat j t).lobby.ready = rest := by
    change v.lobby.ready.tail = rest
    rw [hready, List.tail_cons]
  constructor
  case liveness =>
    intro hlive
    exact h.liveness (hready ▸ List.mem_cons_of_mem _ (hrest ▸ hlive))
  case messages =>
    refine h.messages.imp_right fun ⟨m, hm, hover⟩ => ⟨m, hm, fun {u} hu => ?_⟩
    rw [hrest] at hu
    have hut : u ≠ t := by
      rintro rfl
      exact (List.nodup_cons.1 (hready ▸ hnodup)).1 hu
    obtain ⟨hconfirmed, hmute⟩ := hover (hready ▸ List.mem_cons_of_mem _ hu)
    refine ⟨List.mem_filter.2 ⟨hconfirmed, by simpa using hut⟩, fun {k e} hk uuid => ?_⟩
    have hagent : ((v.seat j t).member k.agent).agent = (v.member k.agent).agent := agent_setStanding
    rw [hagent]
    exact hmute ((joins_set ht).1 hk).1 uuid

end Solo

end Overlay
