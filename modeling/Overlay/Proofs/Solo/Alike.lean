import Mathlib.Data.List.Forall2
import Overlay.Proofs.Solo.Passes

/-!
# Lone engines that draw different identifiers

Two lone engines that do the same draw an identifier for the same messages, but not the same one if
one of them has drawn more identifiers for other ends meanwhile. They are alike as long as the
identifiers that both have drawn for a message go up on both sides and make all the difference
(`Solo.Like`). Whatever happens to both leaves them alike, with a few draws more.

Only liveness passes are not the same for both: the faults are delivered as they come up, or after
the pass. Delivered late they are noted late, and nothing else depends on that (`Like.pass`).
-/

namespace Overlay

/-- The numbers of identifiers that two engines have drawn for the same messages. -/
abbrev Draws := List (Nat × Nat)

/-! ## Messages -/

namespace Message

def withUuid (m : Message) (uuid : Uuid) : Message :=
  { m with uuid := uuid }

/-- Two messages are the same, but for identifiers that were drawn together. -/
def Same (ds : Draws) (m n : Message) : Prop :=
  m = n ∨ ∃ d ∈ ds, m.uuid = .ofNat d.1 ∧ n = m.withUuid (.ofNat d.2)

variable {ds es : Draws} {m n : Message}

theorem Same.mono (h : Same ds m n) (hds : ds ⊆ es) : Same es m n :=
  h.imp_right fun ⟨d, hd, heq⟩ => ⟨d, hds hd, heq⟩

/-- But for its identifier the other message is the same. -/
theorem Same.eq_withUuid (h : Same ds m n) : n = m.withUuid n.uuid := by
  rcases h with rfl | ⟨d, -, -, rfl⟩ <;> rfl

theorem Same.sender (h : Same ds m n) : n.sender = m.sender := by
  rw [h.eq_withUuid]
  rfl

theorem forall₂_same_mono {ms ns : List Message} (h : List.Forall₂ (Same ds) ms ns)
    (hds : ds ⊆ es) : List.Forall₂ (Same es) ms ns :=
  h.imp fun _ _ hm => hm.mono hds

end Message

/-- A criterion that does not look at the identifiers of messages. -/
def Criterion.Blind (criterion : Criterion) : Prop :=
  ∀ (m : Message) (uuid : Uuid) (i : Identity), criterion (m.withUuid uuid) i = criterion m i

theorem Criterion.Blind.eq_of_same {criterion : Criterion} (h : criterion.Blind) {ds : Draws}
    {m n : Message} (hm : m.Same ds n) (i : Identity) : criterion n i = criterion m i := by
  rw [hm.eq_withUuid]
  exact h m n.uuid i

/-- An agent answers messages that are the same with answers that are the same. -/
theorem Agent.reply?_withUuid {agent : Agent} {cloud : Identity} {m : Message} {u u' w : Uuid} :
    agent.reply? cloud u' (m.withUuid w) = (agent.reply? cloud u m).map (·.withUuid u') := by
  obtain ⟨_, kind, sender, recipient, _, _, _, _⟩ := m
  simp only [Agent.reply?, Message.withUuid]
  by_cases hother : recipient ≠ agent.identity ∧ recipient ≠ cloud
  case pos => simp [hother]
  case neg => cases kind <;> simp [hother, Message.presence, Message.pong, Message.plain,
    Message.withPayload]

theorem Agent.uuid_reply? {agent : Agent} {cloud : Identity} {m reply : Message} {u : Uuid}
    (h : agent.reply? cloud u m = some reply) : reply.uuid = u := by
  rcases Agent.reply?_eq_some h with ⟨-, rfl⟩ | ⟨-, rfl⟩ <;> rfl

namespace Solo

/-! ## States -/

/-- Two states are the same but for identifiers that were drawn together, the first of them not
before the given one, and no join is confirmed by an identifier. -/
structure Like (first : Nat) (ds : Draws) (v w : Solo) : Prop where
  engine : w.engine = v.engine
  members : w.members = v.members
  limit : w.limit = v.limit
  log : List.Forall₂ (Message.Same ds) v.log w.log
  heard : List.Forall₂ (fun a b => a.1 = b.1 ∧ Message.Same ds a.2 b.2) v.heard w.heard
  rising : ds.Pairwise fun d e => d.1 < e.1 ∧ d.2 < e.2
  drawn : ∀ d ∈ ds, (first ≤ d.1 ∧ d.1 < v.supply) ∧ first ≤ d.2 ∧ d.2 < w.supply
  begun : first ≤ v.supply ∧ first ≤ w.supply
  blind : v.lobby.criterion.Blind
  lobby : v.lobby.Even w.lobby

/-- Two states are alike after some more draws. -/
def Alike (first : Nat) (ds : Draws) (v w : Solo) : Prop :=
  ∃ es, ds ⊆ es ∧ Like first es v w

variable {first : Nat} {ds es : Draws} {v w : Solo} {m n : Message} {i : Identity} {now : Nat}
  {l : Hearer} {c : Identity × Slot} {order : List (Identity × Slot)}
  {waiting waiting' : List Message}

theorem Like.alike (h : Like first ds v w) : Alike first ds v w :=
  ⟨ds, List.Subset.refl ds, h⟩

theorem Like.refl (v : Solo) (hv : v.lobby.criterion.Blind) : Like v.supply [] v v where
  engine := rfl
  members := rfl
  limit := rfl
  log := List.forall₂_same.2 fun _ _ => .inl rfl
  heard := List.forall₂_same.2 fun _ _ => ⟨rfl, .inl rfl⟩
  rising := .nil
  drawn := nofun
  begun := ⟨Nat.le_refl _, Nat.le_refl _⟩
  blind := hv
  lobby := .refl _

theorem Alike.bind {v' w' : Solo} (h : Alike first ds v w)
    (hnext : ∀ es, ds ⊆ es → Like first es v w → Alike first es v' w') : Alike first ds v' w' := by
  obtain ⟨es, hes, hlike⟩ := h
  obtain ⟨fs, hfs, hlike'⟩ := hnext es hes hlike
  exact ⟨fs, List.Subset.trans hes hfs, hlike'⟩

theorem Alike.of_append (h : Alike first (ds ++ es) v w) : Alike first ds v w := by
  obtain ⟨fs, hfs, hlike⟩ := h
  exact ⟨fs, fun d hd => hfs (List.mem_append_left es hd), hlike⟩

/-- An identifier is drawn on both sides. -/
theorem Like.fresh (h : Like first ds v w) :
    Like first (ds ++ [(v.supply, w.supply)]) v.fresh.2 w.fresh.2 where
  engine := h.engine
  members := h.members
  limit := h.limit
  log := Message.forall₂_same_mono h.log (List.subset_append_left ds _)
  heard := h.heard.imp fun _ _ ha => ⟨ha.1, ha.2.mono (List.subset_append_left ds _)⟩
  rising := by
    refine List.pairwise_append.2 ⟨h.rising, List.pairwise_singleton _ _, fun d hd e he => ?_⟩
    obtain rfl := List.mem_singleton.1 he
    obtain ⟨⟨-, hleft⟩, -, hright⟩ := h.drawn d hd
    exact ⟨hleft, hright⟩
  drawn := by
    intro d hd
    rcases List.mem_append.1 hd with hd | hd
    · obtain ⟨⟨hfirst, hleft⟩, hfirst', hright⟩ := h.drawn d hd
      exact ⟨⟨hfirst, Nat.lt_succ_of_lt hleft⟩, hfirst', Nat.lt_succ_of_lt hright⟩
    · obtain rfl := List.mem_singleton.1 hd
      exact ⟨⟨h.begun.1, Nat.lt_succ_self _⟩, h.begun.2, Nat.lt_succ_self _⟩
  begun := ⟨Nat.le_succ_of_le h.begun.1, Nat.le_succ_of_le h.begun.2⟩
  blind := h.blind
  lobby := h.lobby

/-- What is made with identifiers that are drawn together is the same. -/
theorem same_fresh (ds : Draws) (v w : Solo) (hm : m.uuid = v.fresh.1) :
    Message.Same (ds ++ [(v.supply, w.supply)]) m (m.withUuid w.fresh.1) :=
  .inr ⟨(v.supply, w.supply), List.mem_append_right ds List.mem_cons_self, hm, rfl⟩

theorem Like.drawn_left (h : Like first ds v w) (k : Nat) : Like first ds (v.drawn k) w :=
  { h with
    drawn := fun d hd => by
      obtain ⟨⟨hfirst, hleft⟩, hright⟩ := h.drawn d hd
      exact ⟨⟨hfirst, Nat.lt_add_right k hleft⟩, hright⟩
    begun := ⟨Nat.le_add_right_of_le h.begun.1, h.begun.2⟩ }

theorem Like.drawn_right (h : Like first ds v w) (k : Nat) : Like first ds v (w.drawn k) :=
  { h with
    drawn := fun d hd => by
      obtain ⟨hleft, hfirst, hright⟩ := h.drawn d hd
      exact ⟨hleft, hfirst, Nat.lt_add_right k hright⟩
    begun := ⟨h.begun.1, Nat.le_add_right_of_le h.begun.2⟩ }

/-! ## What both do -/

theorem Like.member (h : Like first ds v w) (a : AgentId) : w.member a = v.member a := by
  rw [Solo.member, h.members, Solo.member]

theorem Like.setEngine (h : Like first ds v w) (engine : Engine) :
    Like first ds { v with engine := engine } { w with engine := engine } :=
  { h with engine := rfl }

theorem Like.touched (h : Like first ds v w) (i : Identity) (now : Nat) :
    Like first ds (v.touched i now) (w.touched i now) :=
  { h with engine := congrArg (·.touched i now) h.engine }

theorem Like.record (h : Like first ds v w) (hm : Message.Same ds m n) :
    Like first ds (v.record m) (w.record n) :=
  { h with
    log := by
      simp only [Solo.record, h.limit, h.log.length_eq]
      exact List.forall₂_drop _ (List.rel_append h.log (.cons hm .nil)) }

theorem Like.inspect (h : Like first ds v w) (hm : Message.Same ds m n) :
    Like first ds (v.inspect m) (w.inspect n) :=
  { h with
    blind := h.blind
    lobby := h.lobby.inspect (h.blind.eq_of_same hm) }

theorem Like.echo (h : Like first ds v w) (hm : Message.Same ds m n) :
    Like first ds (v.echo m) (w.echo n) := by
  have hechoed := ((h.record hm).inspect hm).touched m.sender v.engine.clock
  unfold Solo.echo
  rw [hm.sender, h.engine]
  exact hechoed

theorem Like.call (h : Like first ds v w) (hm : Message.Same ds m n) (l : Hearer) :
    Alike first ds (v.call m l) (w.call n l) := by
  cases l with
  | recorder name => exact Like.alike { h with heard := .cons ⟨rfl, hm⟩ h.heard }
  | responder a cloud =>
    have hfresh := h.fresh
    have hreply : (v.member a).agent.reply? cloud w.fresh.1 n =
        ((v.member a).agent.reply? cloud v.fresh.1 m).map (·.withUuid w.fresh.1) := by
      rw [hm.eq_withUuid]
      exact Agent.reply?_withUuid
    refine ⟨_, List.subset_append_left ds [(v.supply, w.supply)], ?_⟩
    simp only [Solo.call, h.member, hreply]
    cases hanswer : (v.member a).agent.reply? cloud v.fresh.1 m with
    | none => exact hfresh
    | some reply =>
      cases (v.member a).standing with
      | detached => exact hfresh
      | joining e => exact hfresh
      | joined e s => exact hfresh.echo (same_fresh ds v w (Agent.uuid_reply? hanswer))

theorem Like.deliver (h : Like first ds v w) (hm : Message.Same ds m n) :
    Alike first ds (v.deliver m) (w.deliver n) := by
  unfold Solo.deliver
  rw [h.engine]
  generalize v.engine.fanout.audience = audience
  induction audience generalizing ds v w with
  | nil => exact h.alike
  | cons l audience ih => exact (h.call hm l).bind fun es hes hlike => ih hlike (hm.mono hes)

theorem Like.settle (h : Like first ds v w)
    (hwaiting : List.Forall₂ (Message.Same ds) waiting waiting') :
    Alike first ds (v.settle waiting) (w.settle waiting') := by
  unfold Solo.settle
  induction waiting generalizing ds v w waiting' with
  | nil =>
    obtain rfl := List.forall₂_nil_left_iff.1 hwaiting
    exact h.alike
  | cons m waiting ih =>
    obtain ⟨n, rest, hm, hrest, rfl⟩ := List.forall₂_cons_left_iff.1 hwaiting
    rw [List.foldl_cons, List.foldl_cons]
    exact (h.deliver hm).bind fun es hes hlike => ih hlike (Message.forall₂_same_mono hrest hes)

theorem Like.process (h : Like first ds v w) (m : Message) :
    Alike first ds ((v.process m).1.settle (v.process m).2)
      ((w.process m).1.settle (w.process m).2) := by
  have hsame : List.Forall₂ (Message.Same ds) [m] [m] := .cons (.inl rfl) .nil
  unfold Solo.process
  rw [h.engine]
  by_cases hadm : v.engine.admits m = true
  case neg =>
    simp only [if_neg hadm]
    exact (h.touched _ _).alike
  simp only [if_pos hadm]
  cases v.engine.reaction m with
  | nothing => exact (h.touched _ _).alike
  | membership change =>
    exact ((h.setEngine _).touched _ _).alike
  | dispatch => exact (h.touched _ _).settle hsame
  | enquiry =>
    have hquestion := same_fresh ds v w (m := .discovery v.fresh.1 v.engine.identity m.sender) rfl
    have hasked := (h.fresh.echo hquestion).touched m.sender v.engine.clock
    by_cases hown : v.engine.admits (.discovery v.fresh.1 v.engine.identity m.sender) = true
    case pos =>
      have hown' : v.engine.admits (.discovery w.fresh.1 v.engine.identity m.sender) = true := hown
      simp only [if_pos hown, if_pos hown']
      exact (hasked.settle (.cons hquestion .nil)).of_append
    case neg =>
      have hown' : ¬v.engine.admits (.discovery w.fresh.1 v.engine.identity m.sender) = true := hown
      simp only [if_neg hown, if_neg hown']
      exact hasked.alike.of_append

/-- The same message comes in and is delivered on both sides. -/
theorem Like.take (h : Like first ds v w) (m : Message) :
    Alike first ds ((v.take m).1.settle (v.take m).2) ((w.take m).1.settle (w.take m).2) :=
  (h.inspect (.inl rfl)).process m

/-! ## Passes -/

theorem Like.noted (h : Like first ds v w) (hm : Message.Same ds m n) :
    Like first ds (v.noted m) (w.noted n) := by
  have hnotes : ∀ audience : List Hearer, List.Forall₂
      (fun a b : String × Message => a.1 = b.1 ∧ Message.Same ds a.2 b.2)
      (audience.filterMap (note? m)) (audience.filterMap (note? n)) := by
    intro audience
    induction audience with
    | nil => exact .nil
    | cons l audience ih =>
      cases l with
      | recorder name => exact .cons ⟨rfl, hm⟩ ih
      | responder a cloud => exact ih
  exact { h with
    heard := by
      rw [Solo.noted, Solo.noted, h.engine]
      exact List.rel_append (List.forall₂_reverse_iff.2 (hnotes _)) h.heard }

theorem Like.allNoted (h : Like first ds v w)
    (hwaiting : List.Forall₂ (Message.Same ds) waiting waiting') :
    Like first ds (v.allNoted waiting) (w.allNoted waiting') := by
  unfold Solo.allNoted
  induction hwaiting generalizing v w with
  | nil => exact h
  | cons hm _ ih => exact ih (h.noted hm)

theorem Like.evict (h : Like first ds v w) (c : Identity × Slot) :
    ∃ es, ds ⊆ es ∧ Like first es (v.evict c).1 (w.evict c).1 ∧
      List.Forall₂ (Message.Same es) (v.evict c).2 (w.evict c).2 := by
  unfold Solo.evict
  rw [h.engine]
  cases v.engine.evicted? c.1 c.2 with
  | none => exact ⟨ds, List.Subset.refl ds, h, .nil⟩
  | some engine =>
    exact ⟨_, List.subset_append_left ds _, (h.setEngine engine).fresh,
      .cons (same_fresh ds v w rfl) .nil⟩

/-- A pass looks at the same contact on both sides. -/
theorem Like.probe (h : Like first ds v w) (c : Identity × Slot) :
    ∃ es, ds ⊆ es ∧ Like first es (v.probe c).1 (w.probe c).1 ∧
      List.Forall₂ (Message.Same es) (v.probe c).2 (w.probe c).2 := by
  unfold Solo.probe
  rw [h.engine]
  by_cases hquiet : v.engine.isQuiet c.2 = true
  case neg =>
    simp only [if_neg hquiet]
    exact ⟨ds, List.Subset.refl ds, h, .nil⟩
  simp only [if_pos hquiet]
  have hping := same_fresh ds v w (m := .ping v.fresh.1 v.engine.identity c.1) rfl
  have hasked := h.fresh.echo hping
  obtain ⟨es, hes, hlike, hsame⟩ := hasked.evict c
  exact ⟨es, fun d hd => hes (List.mem_append_left _ hd), hlike, hsame⟩

theorem evict_noted : (v.noted m).evict c = ((v.evict c).1.noted m, (v.evict c).2) := by
  have hengine : (v.noted m).engine = v.engine := rfl
  unfold evict
  rw [hengine]
  cases hlost : v.engine.evicted? c.1 c.2 with
  | none => rfl
  | some engine =>
    obtain rfl := evicted?_eq hlost
    rfl

/-- What is noted late is noted in the end, and nothing else depends on it. -/
theorem probe_noted : (v.noted m).probe c = ((v.probe c).1.noted m, (v.probe c).2) := by
  have hengine : (v.noted m).engine = v.engine := rfl
  have hecho : ∀ ping : Message, (v.noted m).fresh.2.echo ping = (v.fresh.2.echo ping).noted m :=
    fun _ => rfl
  unfold probe
  rw [hengine]
  by_cases hquiet : v.engine.isQuiet c.2 = true
  case pos =>
    rw [if_pos hquiet, if_pos hquiet, hecho]
    exact evict_noted
  case neg => rw [if_neg hquiet, if_neg hquiet]

theorem probe_allNoted :
    (v.allNoted waiting).probe c = ((v.probe c).1.allNoted waiting, (v.probe c).2) := by
  unfold allNoted
  induction waiting generalizing v with
  | nil => rfl
  | cons m waiting ih => rw [List.foldl_cons, ih, probe_noted, List.foldl_cons]

theorem Like.lag (h : Like first ds v (w.allNoted waiting)) :
    Alike first ds (v.passAtOnce order)
      ((w.pass waiting order).1.allNoted (w.pass waiting order).2) := by
  unfold passAtOnce
  induction order generalizing ds v w waiting with
  | nil => exact h.alike
  | cons c order ih =>
    obtain ⟨es, hes, hlike, hleft⟩ := h.probe c
    -- What has been noted at once on one side is ahead of the pass on the other one.
    rw [probe_allNoted] at hlike hleft
    have hfaults : ∀ m ∈ (v.probe c).2, m.kind = .fault := fun m hm => fault_of_mem_probe hm
    have hnoted := (hlike.allNoted hleft).drawn_left
      ((v.probe c).2.length * (v.probe c).1.respondents)
    rw [← settle_faults hfaults] at hnoted
    have hjoint : ((w.probe c).1.allNoted waiting).allNoted (w.probe c).2 =
        (w.probe c).1.allNoted (waiting ++ (w.probe c).2) := List.foldl_append.symm
    rw [hjoint] at hnoted
    exact Alike.bind ⟨es, hes, hnoted⟩ fun _ _ hnext => ih hnext

/-- A pass leaves both alike, whether faults are delivered as they come up or afterwards. -/
theorem Like.pass (h : Like first ds v w) (order : List (Identity × Slot)) :
    Alike first ds (v.passAtOnce order) ((w.pass [] order).1.settle (w.pass [] order).2) := by
  have hfaults : ∀ m ∈ (w.pass [] order).2, m.kind = .fault := fun m hm =>
    fault_of_mem_pass (fun n hn => absurd hn List.not_mem_nil) hm
  have hstart : Like first ds v (w.allNoted []) := h
  rw [settle_faults hfaults]
  exact hstart.lag.bind fun _ _ hlike => (hlike.drawn_right _).alike

end Solo

end Overlay
