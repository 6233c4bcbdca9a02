import Mathlib.Data.List.Forall2
import Overlay.Proofs.Wire.Message

/-!
# The two ways to read a record

What a record asks for is read off the text or from a tree that the text was read as before. `Agrees`
says that a tree stands for one and the same value either way, off its text and as a tree, and that
there is room to read it as a tree in the first place. It passes from the parts of lists and records
to the whole, also where a record is written as an array of its fields.
-/

namespace Overlay.Wire

open Reader

variable {α β D : Type} {room n limit : Nat} {rest : List UInt8} {first : Bool} {j : Json} {a : α}
  {k expected : String} {d d' : D}

/-- Both ways to read give the same value for a tree, and the tree itself can be read. -/
structure Agrees (read : Streamed α) (ofJson : Buffered α) (room : Nat) (j : Json) (a : α) :
    Prop where
  whole : j.isWhole = true
  depth : j.depth ≤ room
  takes : Takes (read room) j.text a
  given : ofJson j = .ok a

theorem Agrees.opens {read : Streamed α} {ofJson : Buffered α} (h : Agrees read ofJson room j a)
    (rest : List UInt8) : Opens (Utf8.encode j.text ++ rest) :=
  opens_text h.whole rest

theorem Agrees.map {read : Streamed α} {ofJson : Buffered α} (h : Agrees read ofJson room j a)
    (f : α → β) : Agrees (f <$> read) (f <$> ofJson) room j (f a) where
  whole := h.whole
  depth := h.depth
  takes := h.takes.streamed_map f
  given := by
    change (ofJson j).map f = .ok (f a)
    rw [h.given]
    rfl

/-! ## Scalars -/

theorem agrees_string (s : String) :
    Agrees (readString expected) (stringOf expected) room (.string s) s :=
  ⟨rfl, Nat.zero_le _, takes_readString s, rfl⟩

theorem agrees_bool (b : Bool) : Agrees readBool boolOf room (.bool b) b :=
  ⟨rfl, Nat.zero_le _, takes_readBool b, rfl⟩

theorem agrees_identity (i : Identity) : Agrees readIdentity identityIn room i.toJson i := by
  refine ⟨rfl, Nat.zero_le _, takes_readIdentity i, ?_⟩
  have hstring : stringOf "a string" i.toJson = .ok i.display := rfl
  rw [identityIn, Buffered.check, hstring]
  simp [bind, Except.bind, identityOf, Identity.display, Identity.parse_text]

theorem agrees_tag {names : List (String × α)} (h : named names k = .ok a) :
    Agrees (readTag names) (tagIn names) room (.string k) a :=
  ⟨rfl, Nat.zero_le _, takes_readTag h, h⟩

theorem agrees_word (h : n < limit) (hlimit : limit ≤ wordLimit) :
    Agrees (readWord limit expected) (wordIn limit expected) room (.nat n) n := by
  have hlt : n < 0x10000000000000000 := Nat.lt_of_lt_of_le h hlimit
  have hrange : -0x8000000000000000 ≤ (n : Int) ∧ (n : Int) < 0x10000000000000000 := by omega
  have hnat : Json.nat n = .number (.whole n hrange) := by
    rw [Json.nat, Number.ofInt, dif_pos hrange]
  have hin : 0 ≤ (n : Int) ∧ (n : Int) < limit := by omega
  refine ⟨by rw [hnat]; rfl, by rw [hnat]; exact Nat.zero_le _, takes_readWord h hlimit, ?_⟩
  rw [hnat]
  simp [wordIn, wordOf, hin]

/-! ## Lists -/

section

variable {read : Streamed α} {ofJson : Buffered α} {js : List Json} {as : List α}

theorem takesAll_of_forall₂ (h : List.Forall₂ (Agrees read ofJson room) js as) :
    TakesAll (read room) js as := by
  induction h with
  | nil => exact .nil
  | cons hj _ ih => exact .cons hj.takes hj.opens ih

theorem mapM_eq_ok {f : Json → Except Fault α} (h : List.Forall₂ (fun j a => f j = .ok a) js as) :
    js.mapM f = .ok as := by
  induction h with
  | nil => rfl
  | cons hj _ ih =>
    rw [List.mapM_cons, hj, ih]
    rfl

theorem agrees_list (h : List.Forall₂ (Agrees read ofJson room) js as) :
    Agrees (readList read) (listIn ofJson) (room + 1) (.array js) as where
  whole := by
    have hwhole : Json.isWholeItems js = true := by
      induction h with
      | nil => rfl
      | cons hj _ ih => rw [Json.isWholeItems, hj.whole, ih, Bool.and_self]
    exact hwhole
  depth := by
    have hdepth : Json.depthItems js ≤ room := by
      induction h with
      | nil => exact Nat.zero_le _
      | cons hj _ ih => exact Nat.max_le.2 ⟨hj.depth, ih⟩
    exact Nat.succ_le_succ hdepth
  takes := takes_readList (takesAll_of_forall₂ h)
  given := mapM_eq_ok (h.imp fun _ _ hj => hj.given)

end

/-! ## Records as objects -/

namespace Schema

variable {S : Schema Streamed D α} {T : Schema Buffered D α}

/-- Members that both ways take one after the other, each on what the earlier ones have left. -/
inductive AgreesAll (S : Schema Streamed D α) (T : Schema Buffered D α) (room : Nat) :
    D → List (String × Json) → D → Prop
  | nil (d : D) : AgreesAll S T room d [] d
  | cons {d d' : D} {k : String} {j : Json} {ms : List (String × Json)}
      {f : Field Streamed D} {g : Field Buffered D} {set : D → D} :
      S.field? k = some f → T.field? k = some g → f.isGiven d = false → g.isGiven d = false →
      Agrees f.value g.value room j set → AgreesAll S T room (set d) ms d' →
      AgreesAll S T room d ((k, j) :: ms) d'

variable {ms : List (String × Json)}

theorem AgreesAll.folds (h : AgreesAll S T room d ms d') : Folds (S.readMember room) d ms d' := by
  induction h with
  | nil d => exact .nil d
  | cons hf _ hd _ hj _ ih => exact .cons (takes_readMember hf hd hj.takes) ih

theorem AgreesAll.given (h : AgreesAll S T room d ms d') :
    ms.foldlM T.memberIn d = .ok d' := by
  induction h with
  | nil d => rfl
  | @cons d d' k j ms f g set _ hg _ hd hj _ ih =>
    have hmember : T.memberIn d (k, j) = .ok (set d) := by
      simp only [memberIn, hg, hd, Bool.false_eq_true, if_false, hj.given]
      rfl
    rw [List.foldlM_cons, hmember]
    exact ih

theorem AgreesAll.whole (h : AgreesAll S T room d ms d') : (Json.object ms).isWhole = true := by
  rw [Json.isWhole]
  induction h with
  | nil d => rfl
  | cons _ _ _ _ hj _ ih => rw [Json.isWholeMembers, hj.whole, ih, Bool.and_self]

theorem AgreesAll.depth (h : AgreesAll S T room d ms d') : (Json.object ms).depth ≤ room + 1 := by
  rw [Json.depth]
  refine Nat.succ_le_succ ?_
  induction h with
  | nil d => exact Nat.zero_le _
  | cons _ _ _ _ hj _ ih => exact Nat.max_le.2 ⟨hj.depth, ih⟩

theorem AgreesAll.membersIn (h : AgreesAll S T room T.blank ms d) (hT : T.finish d = .ok a) :
    T.membersIn ms = .ok a := by
  rw [Schema.membersIn, h.given]
  exact hT

theorem agrees_readObject (h : AgreesAll S T room S.blank ms d) (hblank : T.blank = S.blank)
    (hS : S.finish d = .ok a) (hT : T.finish d = .ok a) :
    Agrees S.readObject T.ofObject (room + 1) (.object ms) a :=
  ⟨h.whole, h.depth, takes_readObject h.folds hS, (hblank.symm ▸ h : AgreesAll ..).membersIn hT⟩

theorem agrees_read (h : AgreesAll S T room S.blank ms d) (hblank : T.blank = S.blank)
    (hS : S.finish d = .ok a) (hT : T.finish d = .ok a) :
    Agrees S.read T.ofJson (room + 1) (.object ms) a :=
  ⟨h.whole, h.depth, takes_read h.folds hS, (hblank.symm ▸ h : AgreesAll ..).membersIn hT⟩

/-! ## Records as arrays -/

/-- Items that both ways take for the fields in their order. -/
inductive AgreesFields (room : Nat) :
    List (Field Streamed D) → List (Field Buffered D) → List Json → D → D → Prop
  | nil (d : D) : AgreesFields room [] [] [] d d
  | cons {f : Field Streamed D} {g : Field Buffered D} {fs : List (Field Streamed D)}
      {gs : List (Field Buffered D)} {j : Json} {js : List Json} {d d' : D} {set : D → D} :
      Agrees f.value g.value room j set → AgreesFields room fs gs js (set d) d' →
      AgreesFields room (f :: fs) (g :: gs) (j :: js) d d'

variable {fs : List (Field Streamed D)} {gs : List (Field Buffered D)} {js : List Json}

theorem AgreesFields.readFields (h : AgreesFields room fs gs js d d') :
    S.readFields room fs n first d (Utf8.encode (itemsText first js) ++ closeBracket :: rest) =
      .ok (d', closeBracket :: rest) := by
  induction h generalizing n first with
  | nil d => rfl
  | @cons f g fs gs j js d d' set hj _ ih =>
    have hvalue := hj.takes (Utf8.encode (itemsText false js) ++ closeBracket :: rest)
      (closes_itemsText js)
    simp only [itemsText, Utf8.encode_append, List.append_assoc]
    refine (bind_of_ok (nextElement_item (hj.opens _))).trans ?_
    rw [if_pos rfl]
    exact (bind_of_ok hvalue).trans ih

theorem AgreesFields.fieldsIn (h : AgreesFields room fs gs js d d') :
    T.fieldsIn gs n js d = .ok d' := by
  induction h generalizing n with
  | nil d => rfl
  | cons hj _ ih =>
    rw [Schema.fieldsIn, hj.given]
    exact ih

theorem AgreesFields.length_eq (h : AgreesFields room fs gs js d d') : js.length = gs.length := by
  induction h with
  | nil d => rfl
  | cons _ _ ih => rw [List.length_cons, List.length_cons, ih]

theorem AgreesFields.whole (h : AgreesFields room fs gs js d d') :
    (Json.array js).isWhole = true := by
  rw [Json.isWhole]
  induction h with
  | nil d => rfl
  | cons hj _ ih => rw [Json.isWholeItems, hj.whole, ih, Bool.and_self]

theorem AgreesFields.depth (h : AgreesFields room fs gs js d d') :
    (Json.array js).depth ≤ room + 1 := by
  rw [Json.depth]
  refine Nat.succ_le_succ ?_
  induction h with
  | nil d => exact Nat.zero_le _
  | cons hj _ ih => exact Nat.max_le.2 ⟨hj.depth, ih⟩

theorem agrees_read_array (h : AgreesFields room S.fields T.fields js S.blank d)
    (hblank : T.blank = S.blank) (hS : S.finish d = .ok a) (hT : T.finish d = .ok a) :
    Agrees S.read T.ofJson (room + 1) (.array js) a where
  whole := h.whole
  depth := h.depth
  takes := by
    intro rest _
    have hend : endArray (closeBracket :: rest) = .ok ((), rest) := rfl
    rw [encode_array, read_openBracket]
    refine (bind_of_ok h.readFields).trans ?_
    rw [hS]
    refine (bind_of_ok rfl).trans ?_
    exact (bind_of_ok hend).trans rfl
  given := by
    have hlen : ¬T.fields.length < js.length := by
      rw [h.length_eq]
      exact Nat.lt_irrefl _
    change T.elementsOf js = .ok a
    rw [elementsOf, hblank, h.fieldsIn]
    change (T.finish d >>= _) = _
    rw [hT]
    simp [hlen, pure, Except.pure, bind, Except.bind]

end Schema

end Overlay.Wire
