import Overlay.Proofs.Json
import Overlay.Wire.Decode
import Overlay.Wire.Encode

/-!
# How deep a reader goes

`Yields` says of a reader what all its results have in common, whatever the bytes are, and passes
from the parts of a reader to the reader. With it the room of a reader bounds the depth of what comes
out (`yields_value`), also where the body of a payload is read as a tree before its kind is known or
where records are written as arrays, and so the data of an application in a decoded message nest at
most 125 arrays and objects (`Message.bodyDepth_le_of_decode`).
-/

namespace Overlay

namespace Wire

open Reader

variable {α β D : Type} {first : Bool} {room n : Nat}

/-- Whatever a reader makes of any bytes has a property. -/
def Yields (read : Reader α) (P : α → Prop) : Prop :=
  ∀ bytes a rest, read bytes = .ok (a, rest) → P a

namespace Yields

variable {read : Reader α} {cont : α → Reader β} {P : α → Prop} {Q : β → Prop}

theorem any : Yields read fun _ => True := fun _ _ _ _ => trivial

theorem pure {a : α} (h : P a) : Yields (pure a : Reader α) P := by
  rintro bytes _ _ ⟨⟩
  exact h

theorem fail {fault : Fault} : Yields (fail fault : Reader α) P := fun _ _ _ h => by
  cases h

theorem lift {result : Except Fault α} (h : ∀ a, result = .ok a → P a) :
    Yields (Reader.lift result) P := by
  intro bytes a rest hread
  cases result with
  | error fault => cases hread
  | ok b =>
    obtain ⟨⟩ := hread
    exact h _ rfl

theorem bind (h : Yields read P) (hcont : ∀ a, P a → Yields (cont a) Q) :
    Yields (read >>= cont) Q := by
  intro bytes b rest hread
  rw [bind_apply] at hread
  split at hread
  next a rest' heq => exact hcont a (h bytes a rest' heq) rest' b rest hread
  next => cases hread

/-- What was read first does not matter. -/
theorem next (hcont : ∀ a, Yields (cont a) Q) : Yields (read >>= cont) Q :=
  any.bind fun a _ => hcont a

theorem mono (h : Yields read P) {P' : α → Prop} (hP : ∀ a, P a → P' a) : Yields read P' :=
  fun bytes a rest hread => hP a (h bytes a rest hread)

theorem map {f : α → β} (h : Yields read fun a => Q (f a)) : Yields (f <$> read) Q :=
  h.bind fun _ ha => pure ha

theorem ite {c : Prop} [Decidable c] {read' : Reader α} (h : Yields read P)
    (h' : Yields read' P) : Yields (if c then read else read') P := by
  split
  · exact h
  · exact h'

end Yields

/-- What is read to the end is what the reader makes of the bytes. -/
theorem whole_eq_ok {read : Reader α} {bytes : List UInt8} {a : α} (h : whole read bytes = .ok a) :
    ∃ rest, read bytes = .ok (a, rest) := by
  unfold whole at h
  split at h
  next => cases h
  next b rest heq =>
    split at h
    · obtain ⟨⟩ := h
      exact ⟨rest, heq⟩
    · cases h

/-! ## Trees -/

section

variable {P : α → Prop}

theorem yields_elementsIn {item : Reader α} (h : Yields item P) (rounds : Nat) (first : Bool) :
    Yields (elementsIn item rounds first) fun as => ∀ a ∈ as, P a := by
  induction rounds generalizing first with
  | zero => exact .fail
  | succ rounds ih =>
    refine .next fun more => .ite ?_ (.pure (by simp))
    refine h.bind fun a ha => (ih false).bind fun as has => .pure ?_
    exact List.forall_mem_cons.2 ⟨ha, has⟩

theorem yields_elements {item : Reader α} (h : Yields item P) :
    Yields (elements item) fun as => ∀ a ∈ as, P a := by
  intro bytes
  exact ((yields_elementsIn h (bytes.length + 1) true).bind fun as has =>
    .next fun _ => .pure has) bytes

theorem yields_foldMembersIn {step : D → String → Reader D} {Inv : D → Prop}
    (hstep : ∀ d k, Inv d → Yields (step d k) Inv) (rounds : Nat) (first : Bool) {d : D}
    (hd : Inv d) : Yields (foldMembersIn step rounds first d) Inv := by
  induction rounds generalizing first d with
  | zero => exact .fail
  | succ rounds ih =>
    refine .next fun key => ?_
    cases key with
    | none => exact .pure hd
    | some k => exact (hstep d k hd).bind fun d' hd' => ih false hd'

theorem yields_foldMembers {step : D → String → Reader D} {Inv : D → Prop}
    (hstep : ∀ d k, Inv d → Yields (step d k) Inv) {d : D} (hd : Inv d) :
    Yields (foldMembers step first d) Inv := fun bytes =>
  yields_foldMembersIn hstep (bytes.length + 1) first hd bytes

end

theorem yields_scalar? (b : UInt8) : Yields (scalar? b) fun j => ∀ i ∈ j, i.depth = 0 := by
  have scalar : ∀ j : Json, j.depth = 0 → Yields (pure (some j) : Reader (Option Json))
      fun j => ∀ i ∈ j, i.depth = 0 := fun j hj =>
    .pure fun i hi => by rwa [← Option.some.inj hi]
  have keyword : ∀ (cs : List Char) (j : Json), j.depth = 0 →
      Yields (do skip; keyword cs; return some j) fun j => ∀ i ∈ j, i.depth = 0 := fun _ j hj =>
    .next fun _ => .next fun _ => scalar j hj
  unfold scalar?
  refine .ite (keyword _ _ rfl) <| .ite (keyword _ _ rfl) <| .ite (keyword _ _ rfl) <| .ite ?_ <|
    .ite ?_ <| .ite ?_ <| .ite (.pure (by simp)) .fail
  · exact .next fun _ => .next fun n => scalar (.number n) rfl
  · exact .next fun n => scalar (.number n) rfl
  · exact .next fun _ => .next fun s => scalar (.string s) rfl

theorem depthItems_le_iff {js : List Json} :
    Json.depthItems js ≤ n ↔ ∀ j ∈ js, j.depth ≤ n := by
  induction js with
  | nil => simp [Json.depthItems]
  | cons j js ih => simp only [Json.depthItems, Nat.max_le, ih, List.forall_mem_cons]

theorem depthMembers_append (ms ns : List (String × Json)) :
    Json.depthMembers (ms ++ ns) = max (Json.depthMembers ms) (Json.depthMembers ns) := by
  induction ms with
  | nil => simp [Json.depthMembers]
  | cons m ms ih => simp [Json.depthMembers, ih, Nat.max_assoc]

theorem yields_valueWith_none : Yields (valueWith none) fun j => j.depth ≤ 0 := by
  refine .next fun b => (yields_scalar? b).bind fun scalar hscalar => ?_
  cases scalar with
  | some j => exact .pure (Nat.le_of_eq (hscalar j rfl))
  | none => exact .fail

theorem yields_valueWith_some {inner : Reader Json} (h : Yields inner fun j => j.depth ≤ n) :
    Yields (valueWith (some inner)) fun j => j.depth ≤ n + 1 := by
  refine .next fun b => (yields_scalar? b).bind fun scalar hscalar => ?_
  cases scalar with
  | some j => exact .pure (by simp [hscalar j rfl])
  | none =>
    refine .next fun _ => .ite ?_ ?_
    · refine (yields_elements h).bind fun js hjs => .pure ?_
      exact Nat.succ_le_succ (depthItems_le_iff.2 hjs)
    · have hmember : ∀ (ms : List (String × Json)) k, Json.depthMembers ms ≤ n →
          Yields (memberOf inner ms k) fun ms => Json.depthMembers ms ≤ n := by
        intro ms k hms
        refine .next fun _ => h.bind fun j hj => .pure ?_
        simp only [depthMembers_append, Json.depthMembers, Nat.max_le]
        exact ⟨hms, hj, Nat.zero_le n⟩
      have hempty : Json.depthMembers [] ≤ n := Nat.zero_le n
      refine (yields_foldMembers hmember hempty).bind fun ms hms => ?_
      exact .next fun _ => .pure (Nat.succ_le_succ hms)

/-- **No tree is read that is deeper than the room.** -/
theorem yields_value (room : Nat) : Yields (value room) fun j => j.depth ≤ room := by
  induction room with
  | zero => exact yields_valueWith_none
  | succ room ih => exact yields_valueWith_some ih

/-! ## Records -/

/-- Inside of a bracket there is less room than outside. -/
theorem yields_opened {inside : Streamed α} {P : α → Prop}
    (h : ∀ r < room, Yields (inside r) P) : Yields (opened room inside) P := by
  cases room with
  | zero => exact .fail
  | succ room => exact .next fun _ => h room (Nat.lt_succ_self room)

theorem yields_unexpected {b : UInt8} {expected : String} {P : α → Prop} :
    Yields (unexpected b expected) P := by
  refine .next fun scalar => ?_
  cases scalar <;> exact .fail

theorem exists_of_need {name : String} {o : Option α} {next : α → Except Fault β} {b : β}
    (h : (need name o >>= next) = .ok b) : ∃ a, o = some a ∧ next a = .ok b := by
  cases o with
  | none => cases h
  | some a => exact ⟨a, rfl, h⟩

namespace Schema

variable {S : Schema Streamed D α} {Inv : D → Prop}

theorem yields_finish {close : Reader Unit} {d : D} (hd : Inv d) :
    Yields (do let a ← lift (S.finish d); close; return a : Reader α)
      fun a => ∃ d, Inv d ∧ S.finish d = .ok a := by
  have hlift : Yields (lift (S.finish d)) fun a => ∃ d, Inv d ∧ S.finish d = .ok a :=
    .lift fun a ha => ⟨d, hd, ha⟩
  exact hlift.bind fun a ha => .next fun _ => .pure ha

/-- What all fields keep of the draft is known of the draft at the end. -/
theorem yields_readMembers (hblank : Inv S.blank)
    (hfields : ∀ f ∈ S.fields, Yields (f.value room) fun set => ∀ d, Inv d → Inv (set d)) :
    Yields (S.readMembers room) fun a => ∃ d, Inv d ∧ S.finish d = .ok a := by
  have hstep : ∀ d k, Inv d → Yields (S.readMember room d k) Inv := by
    intro d k hd
    unfold readMember
    split
    next => exact .next fun _ => .next fun _ => .pure hd
    next f hf =>
      have hmem : f ∈ S.fields := List.mem_of_find?_eq_some hf
      exact .ite .fail (.next fun _ => (hfields f hmem).bind fun set hset => .pure (hset d hd))
  exact (yields_foldMembers hstep hblank).bind fun d hd => yields_finish hd

theorem yields_readFields (fs : List (Field Streamed D))
    (hfields : ∀ f ∈ fs, Yields (f.value room) fun set => ∀ d, Inv d → Inv (set d)) (n : Nat)
    (first : Bool) {d : D} (hd : Inv d) : Yields (S.readFields room fs n first d) Inv := by
  induction fs generalizing n first d with
  | nil => exact .pure hd
  | cons f fs ih =>
    have htail := ih fun g hg => hfields g (List.mem_cons_of_mem _ hg)
    refine .next fun more => .ite ?_ (.ite .fail (htail _ _ hd))
    exact (hfields f List.mem_cons_self).bind fun set hset => htail _ _ (hset d hd)

theorem yields_read (hblank : Inv S.blank)
    (hfields : ∀ r < room, ∀ f ∈ S.fields,
      Yields (f.value r) fun set => ∀ d, Inv d → Inv (set d)) :
    Yields (S.read room) fun a => ∃ d, Inv d ∧ S.finish d = .ok a := by
  have helements : ∀ r < room, Yields (S.readElements r) fun a => ∃ d, Inv d ∧ S.finish d = .ok a :=
    fun r hr => (yields_readFields S.fields (hfields r hr) 0 true hblank).bind fun d hd =>
      yields_finish hd
  exact .next fun b => .ite (yields_opened helements) <|
    .ite (yields_opened fun r hr => yields_readMembers hblank (hfields r hr)) yields_unexpected

/-- The value of a record that is written as an object comes from some draft. -/
theorem yields_readObject : Yields (S.readObject room) fun a => ∃ d, S.finish d = .ok a := by
  have hany : ∀ r, Yields (S.readMembers r) fun a => ∃ d, True ∧ S.finish d = .ok a := fun r =>
    yields_readMembers trivial fun _ _ => Yields.any.mono fun _ _ _ _ => trivial
  have hmembers : ∀ r, Yields (S.readMembers r) fun a => ∃ d, S.finish d = .ok a := fun r =>
    (hany r).mono fun a ⟨d, _, hd⟩ => ⟨d, hd⟩
  exact .next fun b => .ite (yields_opened fun _ _ => .fail) <|
    .ite (yields_opened fun r _ => hmembers r) yields_unexpected

theorem finish_of_ofObject {T : Schema Buffered D α} {j : Json} {a : α} (h : T.ofObject j = .ok a) :
    ∃ d, T.finish d = .ok a := by
  cases j with
  | object members =>
    simp only [ofObject, membersIn] at h
    cases hd : members.foldlM T.memberIn T.blank with
    | error fault =>
      rw [hd] at h
      cases h
    | ok d =>
      rw [hd] at h
      exact ⟨d, h⟩
  | null | bool | number | string | array => cases h

end Schema

end Wire

open Wire Wire.Reader

/-! ## Payloads -/

namespace Payload

variable {room : Nat} {p : Payload}

/-- How deep the data of an application is; other payloads carry none. -/
def bodyDepth : Payload → Nat
  | .app body => body.tree.depth
  | _ => 0

/-- Whether all numbers in the data of an application are integers. -/
def isWhole : Payload → Bool
  | .app body => body.tree.isWhole
  | _ => true

theorem bodyDepth_of_presence {R : Type → Type} [Functor R] {present : R Bool}
    {endpoints : R EndpointSet} {d : PresenceDraft}
    (h : (presenceSchema present endpoints).finish d = .ok p) : p.bodyDepth = 0 := by
  obtain ⟨_ | b, e⟩ := d
  · cases h
  · obtain ⟨⟩ := h
    rfl

theorem bodyDepth_of_service {R : Type → Type} [Functor R] {name : R String}
    {endpoints : R EndpointSet} {d : ServiceDraft}
    (h : (serviceSchema name endpoints).finish d = .ok p) : p.bodyDepth = 0 := by
  obtain ⟨_ | n, e⟩ := d
  · cases h
  · obtain ⟨⟩ := h
    rfl

theorem bodyDepth_of_about {R : Type → Type} [Functor R] {title : String}
    {make : Identity → Payload} {about : R Identity} {d : Option Identity}
    (h : (aboutSchema title make about).finish d = .ok p) (hmake : ∀ i, (make i).bodyDepth = 0) :
    p.bodyDepth = 0 := by
  obtain _ | i := d
  · cases h
  · obtain ⟨⟩ := h
    exact hmake i

theorem bodyDepth_of_nothing {j : Json} {expected : String} (h : nothing expected j = .ok p) :
    p.bodyDepth = 0 := by
  cases j with
  | null =>
    obtain ⟨⟩ := h
    rfl
  | bool | number | string | array | object => cases h

theorem bodyDepth_of_withoutBody {tag : Tag} (h : withoutBody tag = .ok p) : p.bodyDepth = 0 := by
  cases tag with
  | null =>
    obtain ⟨⟩ := h
    rfl
  | presence | fault | service | enquiry | app => cases h

theorem bodyDepth_ofJson_le (j : Json) : (app (.ofJson j)).bodyDepth ≤ j.depth :=
  Json.depth_normalize_le j

theorem yields_readNothing : Yields (readNothing room) fun p => p.bodyDepth ≤ room := by
  refine .next fun b => .next fun scalar => ?_
  cases scalar with
  | some j => exact .lift fun p hp => by simp [bodyDepth_of_nothing hp]
  | none => exact yields_opened fun _ _ => .fail

/-- A body that is read off the text. -/
theorem yields_readBody (tag : Tag) : Yields (readBody tag room) fun p => p.bodyDepth ≤ room := by
  cases tag with
  | null => exact yields_readNothing
  | presence =>
    exact Schema.yields_readObject.mono fun p ⟨_, hd⟩ => by simp [bodyDepth_of_presence hd]
  | fault =>
    exact Schema.yields_readObject.mono fun p ⟨_, hd⟩ => by
      simp [bodyDepth_of_about hd fun _ => rfl]
  | service =>
    exact Schema.yields_readObject.mono fun p ⟨_, hd⟩ => by simp [bodyDepth_of_service hd]
  | enquiry =>
    exact Schema.yields_readObject.mono fun p ⟨_, hd⟩ => by
      simp [bodyDepth_of_about hd fun _ => rfl]
  | app =>
    exact (yields_value room).bind fun j hj => .pure (Nat.le_trans (bodyDepth_ofJson_le j) hj)

/-- A body that was read as a tree first. -/
theorem bodyDepth_of_bodyOf {tag : Tag} {j : Json} (h : bodyOf tag j = .ok p) :
    p.bodyDepth ≤ j.depth := by
  cases tag with
  | null => simp [bodyDepth_of_nothing h]
  | presence =>
    obtain ⟨_, hd⟩ := Schema.finish_of_ofObject h
    simp [bodyDepth_of_presence hd]
  | fault =>
    obtain ⟨_, hd⟩ := Schema.finish_of_ofObject h
    simp [bodyDepth_of_about hd fun _ => rfl]
  | service =>
    obtain ⟨_, hd⟩ := Schema.finish_of_ofObject h
    simp [bodyDepth_of_service hd]
  | enquiry =>
    obtain ⟨_, hd⟩ := Schema.finish_of_ofObject h
    simp [bodyDepth_of_about hd fun _ => rfl]
  | app =>
    obtain ⟨⟩ := h
    exact bodyDepth_ofJson_le j

theorem yields_endParts {P : Payload → Prop} (h : P p) : Yields (endParts p) P := by
  refine .next fun part => ?_
  cases part with
  | some part => exact .fail
  | none => exact .next fun _ => .pure h

theorem yields_readParts : Yields (readParts room) fun p => p.bodyDepth ≤ room := by
  refine .next fun part => ?_
  cases part with
  | none => exact .fail
  | some part =>
    cases part with
    | kind =>
      refine .next fun _ => .next fun tag => .next fun part => ?_
      cases part with
      | none =>
        have hlift : Yields (lift (withoutBody tag)) fun p => p.bodyDepth ≤ room :=
          .lift fun p hp => by simp [bodyDepth_of_withoutBody hp]
        exact hlift.bind fun p hp => .next fun _ => .pure hp
      | some part =>
        cases part with
        | kind => exact .fail
        | body => exact .next fun _ => (yields_readBody tag).bind fun p hp => yields_endParts hp
    | body =>
      refine .next fun _ => (yields_value room).bind fun j hj => .next fun part => ?_
      cases part with
      | none => exact .fail
      | some part =>
        cases part with
        | kind =>
          refine .next fun _ => .next fun tag => ?_
          have hlift : Yields (lift (bodyOf tag j)) fun p => p.bodyDepth ≤ room :=
            .lift fun p hp => Nat.le_trans (bodyDepth_of_bodyOf hp) hj
          exact hlift.bind fun p hp => yields_endParts hp
        | body => exact .fail

theorem yields_readPair : Yields (readPair room) fun p => p.bodyDepth ≤ room := by
  have hbody : ∀ tag, Yields (do let p ← readBody tag room; endArray; return p : Reader Payload)
      fun p => p.bodyDepth ≤ room := fun tag =>
    (yields_readBody tag).bind fun p hp => .next fun _ => .pure hp
  refine .next fun more => .ite (.next fun _ => ?_) ?_
  all_goals
    refine .next fun tag => .next fun more => .ite (.next fun _ => ?_) ?_
    all_goals exact hbody tag

theorem yields_read : Yields (Payload.read room) fun p => p.bodyDepth < room := by
  refine .next fun b => .ite (yields_opened fun r hr => ?_) <|
    .ite (yields_opened fun r hr => ?_) yields_unexpected
  · exact yields_readPair.mono fun p hp => Nat.lt_of_le_of_lt hp hr
  · exact yields_readParts.mono fun p hp => Nat.lt_of_le_of_lt hp hr

end Payload

/-! ## Messages -/

namespace Message

variable {room : Nat} {m : Message}

/-- What a draft knows of its payload: that it fits into the room. -/
def Draft.Fits (room : Nat) (d : Draft) : Prop :=
  ∀ p ∈ d.payload, p.bodyDepth + 1 < room

/-- Only the payload of a draft has a depth. -/
theorem yields_fields {r : Nat} (hr : r < room) :
    ∀ f ∈ fields, Yields (f.value r) fun set => ∀ d, Draft.Fits room d → Draft.Fits room (set d) := by
  have keeps : ∀ {α : Type} {read : Streamed α} {set : α → Draft → Draft},
      (∀ a d, (set a d).payload = d.payload) →
        Yields ((set <$> read) r) fun set => ∀ d, Draft.Fits room d → Draft.Fits room (set d) :=
    fun h => .map (Yields.any.mono fun a _ d hd => by rwa [Draft.Fits, h])
  have payload : Yields (Payload.read r) fun p => ∀ d : Draft, Draft.Fits room d →
      Draft.Fits room { d with payload := some p } := by
    refine Payload.yields_read.mono fun p hp d _ q hq => ?_
    obtain ⟨⟩ := hq
    omega
  intro f hf
  simp only [fields, List.mem_cons, List.not_mem_nil, or_false] at hf
  rcases hf with rfl | rfl | rfl | rfl | rfl | rfl | rfl | rfl
  · exact keeps fun _ _ => rfl
  · exact keeps fun _ _ => rfl
  · exact keeps fun _ _ => rfl
  · exact keeps fun _ _ => rfl
  · exact keeps fun _ _ => rfl
  · exact keeps fun _ _ => rfl
  · exact payload.map
  · exact keeps fun _ _ => rfl

theorem payload_of_finish {d : Draft} (h : schema.finish d = .ok m) :
    m.payload = d.payload.getD .null := by
  obtain ⟨_, _, h⟩ := exists_of_need h
  obtain ⟨_, _, h⟩ := exists_of_need h
  obtain ⟨_, _, h⟩ := exists_of_need h
  obtain ⟨_, _, h⟩ := exists_of_need h
  obtain ⟨_, _, h⟩ := exists_of_need h
  obtain ⟨_, _, h⟩ := exists_of_need h
  obtain ⟨⟩ := h
  rfl

/-- **The data of an application in a decoded message nest at most 125 arrays and objects.** -/
theorem bodyDepth_le_of_decode {bytes : List UInt8} (h : decode bytes = .ok m) :
    m.payload.bodyDepth ≤ 125 := by
  obtain ⟨rest, hread⟩ := whole_eq_ok h
  have hblank : schema.blank.Fits fullRoom := fun _ hp => nomatch hp
  have hyields := Schema.yields_read hblank fun r hr => yields_fields hr
  obtain ⟨d, hd, hfinish⟩ := hyields bytes m rest hread
  rw [payload_of_finish hfinish]
  cases hpayload : d.payload with
  | none => exact Nat.zero_le _
  | some p =>
    have hp : p.bodyDepth + 1 < fullRoom := hd p hpayload
    exact Nat.le_of_lt_succ (Nat.lt_of_succ_lt_succ hp)

end Message

/-! ## The depth of the wire form -/

theorem EndpointSet.depth_toJson_le (s : EndpointSet) : s.toJson.depth ≤ 2 := by
  have hitems : Json.depthItems (s.toList.map Endpoint.toJson) ≤ 1 :=
    depthItems_le_iff.2 fun j hj => by
      obtain ⟨e, _, rfl⟩ := List.mem_map.1 hj
      exact Nat.le_refl 1
  exact Nat.succ_le_succ hitems

theorem Payload.depth_toJson_le (p : Payload) : p.toJson.depth ≤ max 4 (p.bodyDepth + 1) := by
  cases p with
  | presence present s | service name s =>
    have := s.depth_toJson_le
    simp only [toJson, tagged, Json.depth, Json.depthMembers]
    omega
  | null | fault about | enquiry about | app body =>
    simp only [toJson, tagged, Identity.toJson, bodyDepth, Json.depth, Json.depthMembers]
    omega

/-- The envelope and the payload are two objects around the data of an application. -/
theorem Message.depth_toJson_le (m : Message) :
    m.toJson.depth ≤ max 5 (m.payload.bodyDepth + 2) := by
  have := m.payload.depth_toJson_le
  cases hsignature : m.signature with
  | none | some s =>
    simp only [toJson, hsignature, Json.depth, depthMembers_append, Json.depthMembers,
      Identity.toJson, Signature.toJson]
    omega

end Overlay
