import Overlay.Proofs.Interleaving.Basic

/-!
# Agents of this process among the contacts

Who is registered and who is known as a contact is kept apart by nothing but the order in which
things happen: an announcement is refused if its sender is registered, but a registration is not
refused if the identity is known, and nowhere is the name of the cloud refused as that of a sender.
So the two stay apart exactly as long as nobody is registered who is known and no arrival is
announced in the name of the cloud; such moves are `Engine.Trespasses`. While they are apart, no
message for this process is mistaken for one to an agent elsewhere.
-/

namespace Overlay

namespace Engine

/-- No registered agent is a contact, and the cloud itself is none. -/
structure Separate (e : Engine) : Prop where
  disjoint : ∀ i, e.directory.isLocal i = true → e.directory.isRemote i = false
  self : e.directory.isRemote e.identity = false

/-- A move that makes a contact of a registered agent or of the cloud. -/
def Trespasses (e : Engine) : Move → Prop
  | .register i _ => e.directory.isRemote i = true
  | .receive m =>
    m.sender = e.identity ∧ e.admits m = true ∧ ∃ eps, e.reaction m = .membership (.arrival eps)
  | _ => False

variable {e e' : Engine} {m : Message} {i : Identity}

/-- To lose contacts or registrations keeps them apart. -/
theorem Separate.mono (h : e.Separate) (hid : e'.identity = e.identity)
    (hlocal : ∀ {i}, e'.directory.isLocal i = true → e.directory.isLocal i = true)
    (hremote : ∀ {i}, e'.directory.isRemote i = true → e.directory.isRemote i = true) :
    e'.Separate where
  disjoint := by
    intro i hi
    rw [← Bool.not_eq_true]
    intro hr
    exact absurd (hremote hr) (by simp [h.disjoint i (hlocal hi)])
  self := by
    rw [← Bool.not_eq_true]
    intro hr
    rw [hid] at hr
    exact absurd (hremote hr) (by simp [h.self])

/-- A message for this process is not refused as one for an agent elsewhere. -/
theorem Separate.admits (h : e.Separate) (hsender : e.directory.isLocal m.sender = false)
    (hrecipient : m.recipient = e.identity ∨ e.directory.isLocal m.recipient = true) :
    e.admits m = true := by
  unfold Engine.admits
  rcases hrecipient with hself | hlocal
  · simp [hsender, hself, h.self]
  · simp [hsender, hlocal, h.disjoint _ hlocal]

theorem sender_of_admits (h : e.admits m = true) : e.directory.isLocal m.sender = false := by
  unfold Engine.admits at h
  simp only [Bool.and_eq_true, Bool.not_eq_true'] at h
  exact h.1.1

/-- The sender of an arrival is not registered, so it is out of place only if it is the cloud. -/
theorem Separate.announce_iff (h : e.Separate) {eps : EndpointSet} {now : Nat}
    (hsender : e.directory.isLocal i = false) :
    Separate { e with directory := (e.directory.announce i eps now) } ↔ i ≠ e.identity := by
  constructor
  · rintro hsep rfl
    have hself := hsep.self
    simp at hself
  · intro hne
    constructor
    · intro j hj
      simp only [Directory.isLocal_announce] at hj
      have hji : j ≠ i := by
        rintro rfl
        rw [hsender] at hj
        contradiction
      simp [hji, h.disjoint j hj]
    · simp [Ne.symm hne, h.self]

theorem Separate.touched_iff {now : Nat} : (e.touched i now).Separate ↔ e.Separate := by
  constructor
  · rintro ⟨hdisjoint, hself⟩
    exact ⟨by simpa [touched] using hdisjoint, by simpa [touched] using hself⟩
  · rintro ⟨hdisjoint, hself⟩
    exact ⟨by simpa [touched] using hdisjoint, by simpa [touched] using hself⟩

theorem not_trespasses_receive (h : ∀ eps, e.reaction m ≠ .membership (.arrival eps)) :
    ¬e.Trespasses (.receive m) := by
  rintro ⟨-, -, eps, hr⟩
  exact h eps hr

/-- A call keeps them apart unless it is an arrival in the name of the cloud. -/
theorem Separate.informed_iff (h : e.Separate) :
    (e.informed m).Separate ↔ ¬e.Trespasses (.receive m) := by
  unfold informed
  by_cases hadm : e.admits m = true
  · rw [if_pos hadm]
    cases hr : e.reaction m with
    | membership change =>
      cases change with
      | arrival eps =>
        refine (h.announce_iff (sender_of_admits hadm)).trans (not_congr ?_)
        exact ⟨fun hself => ⟨hself, hadm, eps, hr⟩, fun ht => ht.1⟩
      | departure =>
        refine iff_of_true (h.mono rfl id ?_) (not_trespasses_receive (by simp [hr]))
        intro j hj
        simp only [changed, Directory.isRemote_removeRemote, Bool.and_eq_true] at hj
        exact hj.2
    | nothing => exact iff_of_true h (not_trespasses_receive (by simp [hr]))
    | enquiry => exact iff_of_true h (not_trespasses_receive (by simp [hr]))
    | dispatch => exact iff_of_true h (not_trespasses_receive (by simp [hr]))
  · rw [if_neg hadm]
    refine iff_of_true h ?_
    rintro ⟨-, hadm', -⟩
    exact hadm hadm'

theorem not_trespasses_of_lingers (h : e.lingers m = true) : ¬e.Trespasses (.receive m) := by
  refine not_trespasses_receive fun eps hr => ?_
  simp [lingers, hr] at h

end Engine

namespace Moment

variable {w w' w₀ : Moment} {mv : Move} {moves : List Move}

theorem IsFresh.separate (h : w.IsFresh) : w.engine.Separate := by
  constructor
  · intro i hi
    rw [h.directory] at hi
    contradiction
  · rw [h.directory]
    rfl

/-- A registration keeps them apart if the identity is not known. -/
theorem register_separate_iff (h : w.engine.Separate) {i : Identity} {a : AgentId} {d : Directory}
    (hd : w.engine.directory.insertLocal? i a = some d) :
    (w.withDirectory d).engine.Separate ↔ w.engine.directory.isRemote i = false := by
  have hremote : ∀ j, d.isRemote j = w.engine.directory.isRemote j := fun j =>
    Directory.isRemote_insertLocal? hd
  constructor
  · intro hsep
    rw [← hremote]
    exact hsep.disjoint i (by simp [withDirectory, Directory.isLocal_insertLocal? hd])
  · intro hi
    constructor
    · intro j hj
      simp only [withDirectory, Directory.isLocal_insertLocal? hd, Bool.or_eq_true, beq_iff_eq] at hj
      rw [withDirectory, hremote]
      rcases hj with rfl | hj
      · exact hi
      · exact h.disjoint j hj
    · rw [withDirectory, hremote]
      exact h.self

/-- **One move.** From a moment at which agents and contacts are apart a move leads to one at which
they are exactly if it does not trespass. -/
theorem move_separate_iff (h : w.engine.Separate) (hm : w.move? mv = some w') :
    w'.engine.Separate ↔ ¬w.engine.Trespasses mv := by
  cases mv with
  | receive m =>
    cases hm
    unfold receive
    by_cases hl : w.engine.lingers m = true
    · rw [if_pos hl]
      exact iff_of_true h (Engine.not_trespasses_of_lingers hl)
    · rw [if_neg hl]
      exact Engine.Separate.touched_iff.trans h.informed_iff
  | conclude c =>
    simp only [move?] at hm
    split at hm
    · cases hm
      exact iff_of_true (Engine.Separate.touched_iff.2 h) id
    · contradiction
  | beginPass order =>
    simp only [move?] at hm
    split at hm
    · cases hm; exact iff_of_true h id
    · contradiction
  | look q =>
    simp only [move?] at hm
    split at hm
    · cases hm; exact iff_of_true h id
    · contradiction
  | resolve q =>
    simp only [move?] at hm
    split at hm
    · cases hm
      refine iff_of_true ?_ id
      unfold Engine.evicted?
      split
      · refine h.mono rfl id ?_
        intro j hj
        simp only [Option.getD_some, Directory.isRemote_removeRemote, Bool.and_eq_true] at hj
        exact hj.2
      · exact h
    · contradiction
  | register i a =>
    simp only [move?, Option.map_eq_some_iff] at hm
    obtain ⟨d, hd, rfl⟩ := hm
    rw [register_separate_iff h hd, Engine.Trespasses, Bool.not_eq_true]
  | unregister i =>
    cases hm
    exact iff_of_true (h.mono rfl Directory.isLocal_of_isLocal_removeLocal id) id
  | withdraw i a =>
    cases hm
    exact iff_of_true (h.mono rfl Directory.isLocal_of_isLocal_removeLocalAgent id) id
  | setClock now => cases hm; exact iff_of_true ⟨h.disjoint, h.self⟩ id
  | forget =>
    cases hm
    refine iff_of_true ⟨?_, rfl⟩ id
    intro i hi
    contradiction
  | tend fanout nextPass present => cases hm; exact iff_of_true ⟨h.disjoint, h.self⟩ id

theorem separate_of_not_trespasses {w u : Moment} {pre moves : List Move} (h : w.engine.Separate)
    (hmoves : ∀ pre mv v v', pre ++ [mv] <+: moves → w.run? pre = some v → v.move? mv = some v' →
      ¬v.engine.Trespasses mv)
    (hpre : pre <+: moves) (hrun : w.run? pre = some u) : u.engine.Separate := by
  induction pre generalizing w moves with
  | nil => cases hrun; exact h
  | cons mv pre ih =>
    obtain ⟨moves, rfl⟩ : ∃ more, moves = mv :: more := by
      obtain ⟨more, rfl⟩ := hpre
      exact ⟨_, rfl⟩
    obtain ⟨v, hv, hrest⟩ := run?_cons hrun
    have hsep : v.engine.Separate :=
      (move_separate_iff h hv).2 (hmoves [] mv w v ⟨moves, rfl⟩ rfl hv)
    refine ih hsep ?_ (List.cons_prefix_cons.1 hpre).2 hrest
    intro pre' mv' u u' hpre' hrun' hm'
    refine hmoves (mv :: pre') mv' u u' (List.cons_prefix_cons.2 ⟨rfl, hpre'⟩) ?_ hm'
    rw [run?, hv]
    exact hrun'

/-- **A run.** Agents and contacts are apart at every moment of a run exactly if no move of it
trespasses. If none does, no message for this process is ever refused, unless an agent of the process
has sent it. -/
theorem separate_throughout_iff (hfresh : w₀.IsFresh) :
    ((∀ pre w, pre <+: moves → w₀.run? pre = some w → w.engine.Separate) ↔
      ∀ pre mv w w', pre ++ [mv] <+: moves → w₀.run? pre = some w → w.move? mv = some w' →
        ¬w.engine.Trespasses mv) ∧
    ((∀ pre mv w w', pre ++ [mv] <+: moves → w₀.run? pre = some w → w.move? mv = some w' →
        ¬w.engine.Trespasses mv) →
      ∀ pre w, pre <+: moves → w₀.run? pre = some w → ∀ m : Message,
        w.engine.directory.isLocal m.sender = false →
        (m.recipient = w.engine.identity ∨ w.engine.directory.isLocal m.recipient = true) →
        w.engine.admits m = true) := by
  refine ⟨⟨?_, ?_⟩, ?_⟩
  · intro hall pre mv w w' hpre hrun hm
    have hsep := hall pre w ((List.prefix_append _ _).trans hpre) hrun
    exact (move_separate_iff hsep hm).1 (hall _ w' hpre (run?_concat hrun hm))
  · intro hmoves pre w hpre hrun
    exact separate_of_not_trespasses hfresh.separate hmoves hpre hrun
  · intro hmoves pre w hpre hrun m hsender hrecipient
    have hsep := separate_of_not_trespasses hfresh.separate hmoves hpre hrun
    exact hsep.admits hsender hrecipient

/-! ### An agent that is announced before it joins -/

def blank : Moment := ⟨default, [], []⟩

/-- An agent is announced from outside and then registered here. -/
def moveIn (x : Identity) : List Move :=
  [.receive (.presence default x blank.engine.identity .empty), .register x 0]

/-- The cloud itself is announced from outside. -/
def imposture : List Move :=
  [.receive (.presence default blank.engine.identity blank.engine.identity .empty)]

theorem separate_throughout_iff_moveIn :
    blank.IsFresh ∧
      ((∀ pre w, pre <+: moveIn (.agent default) → blank.run? pre = some w → w.engine.Separate) ↔
        ∀ pre mv w w', pre ++ [mv] <+: moveIn (.agent default) → blank.run? pre = some w →
          w.move? mv = some w' → ¬w.engine.Trespasses mv) :=
  have hfresh : blank.IsFresh := ⟨rfl, rfl, rfl⟩
  ⟨hfresh, (separate_throughout_iff hfresh).1⟩

/-- An agent is at once registered and known as a contact, and what is sent to it is refused. The
cloud is its own contact. -/
theorem not_separate_moveIn :
    (∃ w, blank.run? (moveIn (.agent default)) = some w ∧
      w.engine.directory.isLocal (.agent default) = true ∧
      w.engine.directory.isRemote (.agent default) = true ∧
      ∃ m : Message, w.engine.directory.isLocal m.sender = false ∧
        m.recipient = .agent default ∧ w.engine.admits m = false) ∧
    ∃ w, blank.run? imposture = some w ∧ w.engine.directory.isRemote w.engine.identity = true :=
  ⟨⟨_, rfl, by decide, by decide, .ping default default (.agent default), by decide, rfl, by decide⟩,
    _, rfl, by decide⟩

end Moment

end Overlay
