import Overlay.Proofs.Wire.Endpoints
import Overlay.Proofs.Wire.Layout

/-!
# Payloads in any spelling

A payload is an object with a kind and a body in either order, other keys anywhere between them, or
an array of the two. If the kind comes first the body is read off the text, otherwise as a tree, and
the record is taken from the tree; whichever way it goes, the payload is the same
(`Payload.decode_spellings`). That the body is the same either way is `Payload.agrees_body`; the loop
up to the next key that matters is followed through all that may stand before it
(`nextPart_of_adorned`).
-/

namespace Overlay

open Wire Wire.Reader

namespace Payload

/-! ## Kinds and bodies -/

def kindName : Payload → String
  | null => "null"
  | presence _ _ => "presence"
  | fault _ => "fault"
  | service _ _ => "qne"
  | enquiry _ => "enquiry"
  | app _ => "app"

def tag : Payload → Tag
  | null => .null
  | presence _ _ => .presence
  | fault _ => .fault
  | service _ _ => .service
  | enquiry _ => .enquiry
  | app _ => .app

/-- What a payload is written as behind its kind; null for the empty one. -/
def bodyJson : Payload → Json
  | null => .null
  | presence present s => .object [("present", .bool present), ("endpoints", s.toJson)]
  | fault about | enquiry about => .object [("about", about.toJson)]
  | service name s => .object [("name", .string name), ("endpoints", s.toJson)]
  | app body => body.tree

/-- The body of a payload, its endpoints being listed in any way. -/
inductive BodySpelledAs : Payload → Json → Prop
  | null : BodySpelledAs null .null
  | presence {present : Bool} {s : EndpointSet} {items : List Json} : s.SpelledAs items →
      BodySpelledAs (presence present s)
        (.object [("present", .bool present), ("endpoints", .array items)])
  | fault {about : Identity} : BodySpelledAs (fault about) (.object [("about", about.toJson)])
  | service {name : String} {s : EndpointSet} {items : List Json} : s.SpelledAs items →
      BodySpelledAs (service name s)
        (.object [("name", .string name), ("endpoints", .array items)])
  | enquiry {about : Identity} : BodySpelledAs (enquiry about) (.object [("about", about.toJson)])
  | app {body : Body} : BodySpelledAs (app body) body.tree

variable {p q : Payload} {j : Json} {room rounds : Nat} {first : Bool} {part : Part} {k : String}
  {kind body v bs text rest : List UInt8} {core ms : List (String × List UInt8)}

theorem toJson_eq_tagged (h : p ≠ null) : p.toJson = tagged p.kindName p.bodyJson := by
  cases p with
  | null => exact absurd rfl h
  | presence | fault | service | enquiry | app => rfl

theorem bodySpelledAs_bodyJson (p : Payload) : p.BodySpelledAs p.bodyJson := by
  cases p with
  | null => exact .null
  | presence present s => exact .presence s.spelledAs_toJson
  | fault about => exact .fault
  | service name s => exact .service s.spelledAs_toJson
  | enquiry about => exact .enquiry
  | app body => exact .app

/-- The encoding of a payload other than the empty one is an object of its kind and its body. -/
theorem isObject_toJson (h : p ≠ null) :
    IsObject [("kind", Utf8.encode (Json.string p.kindName).text),
      ("body", Utf8.encode p.bodyJson.text)] (Utf8.encode p.toJson.text) := by
  rw [toJson_eq_tagged h, tagged, encode_text_object]
  exact isObject_compactObject _

theorem named_kindName (p : Payload) : named tags p.kindName = .ok p.tag := by
  cases p <;> rfl

theorem agrees_about {title : String} {make : Identity → Payload} (i : Identity) :
    Agrees (aboutSchema title make readIdentity).readObject
      (aboutSchema title make identityIn).ofObject (room + 1) (.object [("about", i.toJson)])
      (make i) :=
  Schema.agrees_readObject (.cons rfl rfl rfl rfl ((agrees_identity i).map _) (.nil _)) rfl rfl rfl

/-- **Off the text and from a tree, the body of a payload is the same.** -/
theorem agrees_body (h : p.BodySpelledAs j) (hwhole : p.isWhole = true)
    (hdepth : p.bodyDepth ≤ room + 3) :
    Agrees (readBody p.tag) (bodyOf p.tag) (room + 3) j p := by
  cases h with
  | null => exact ⟨rfl, Nat.zero_le _, fun _ _ => rfl, rfl⟩
  | presence hs =>
    exact Schema.agrees_readObject (.cons rfl rfl rfl rfl ((agrees_bool _).map _) <|
      .cons rfl rfl rfl rfl ((EndpointSet.agrees hs).map _) (.nil _)) rfl rfl rfl
  | fault => exact agrees_about _
  | service hs =>
    exact Schema.agrees_readObject (.cons rfl rfl rfl rfl ((agrees_string _).map _) <|
      .cons rfl rfl rfl rfl ((EndpointSet.agrees hs).map _) (.nil _)) rfl rfl rfl
  | enquiry => exact agrees_about _
  | @app b =>
    refine ⟨hwhole, hdepth, (reads_app hwhole hdepth).takes, ?_⟩
    change Except.ok (app (.ofJson b.tree)) = _
    rw [Body.ofJson_tree]

/-- A payload that is read again has data that fit. -/
theorem bodyDepth_le_of_decode (hwhole : p.isWhole = true)
    (h : decode (Utf8.encode p.toJson.text) = .ok q) : p.bodyDepth ≤ 126 := by
  refine Nat.le_of_not_lt fun hdepth => ?_
  have hread := refuses_read hwhole hdepth [] trivial
  rw [List.append_nil] at hread
  have hread' : read fullRoom (Utf8.encode p.toJson.text) = .error (.malformed .tooDeep) := hread
  rw [decode, whole, hread'] at h
  cases h

theorem decode_encode_of_le (hwhole : p.isWhole = true) (hdepth : p.bodyDepth ≤ 126) :
    decode (Utf8.encode p.toJson.text) = .ok p := by
  have hread := (reads_read hwhole hdepth).takes [] trivial
  rw [List.append_nil] at hread
  have hread' : read fullRoom (Utf8.encode p.toJson.text) = .ok (p, []) := hread
  simp [decode, whole, hread']

/-! ## Other keys -/

/-- The members of an object in their order, with others under keys that do not matter anywhere
between them. -/
inductive Adorned : List (String × List UInt8) → List (String × List UInt8) → Prop
  | nil : Adorned [] []
  | keep {m : String × List UInt8} {core ms : List (String × List UInt8)} : Adorned core ms →
      Adorned (m :: core) (m :: ms)
  | add {k : String} {v : List UInt8} {core ms : List (String × List UInt8)} : k ≠ "kind" →
      k ≠ "body" → WellFormed v → Adorned core ms → Adorned core ((k, v) :: ms)

theorem Adorned.refl (ms : List (String × List UInt8)) : Adorned ms ms := by
  induction ms with
  | nil => exact .nil
  | cons m ms ih => exact .keep ih

/-- One round over a member that does not matter. -/
theorem nextPartIn_other {t u key w x : List UInt8} (ht : Blank t) (hu : Blank u)
    (hkey : Spelling key k.toList) (hw : Blank w) (hx : Blank x) (hkind : k ≠ "kind")
    (hbody : k ≠ "body") (hv : WellFormed v) (hrest : Closes rest) :
    nextPartIn (rounds + 1) first
        (t ++ ((if first then [] else comma :: u) ++ quote :: (key ++
          (w ++ colon :: (x ++ (v ++ rest)))))) =
      nextPartIn rounds false rest := by
  have hpart : partOf? k = none := by simp [partOf?, hkind, hbody]
  refine (bind_of_ok (nextKey_layout ht hu hkey)).trans ?_
  simp only [hpart]
  refine (bind_of_ok (colonMark_blank hw)).trans ?_
  exact bind_of_ok (skipValue_wellFormed hv hx hrest)

theorem nextPartIn_nil (h : Adorned [] ms) (hbs : Layout first ms bs)
    (hrounds : ms.length < rounds) :
    nextPartIn rounds first (bs ++ closeBrace :: rest) = .ok (none, closeBrace :: rest) := by
  generalize hcore : ([] : List (String × List UInt8)) = core at h
  induction h generalizing first bs rounds with
  | nil =>
    obtain ⟨rounds, rfl⟩ := Nat.exists_eq_succ_of_ne_zero (Nat.ne_of_gt hrounds)
    cases hbs with
    | nil hw =>
      exact (bind_of_ok ((skipsBlanks_nextKey _ _ hw).trans nextKey_close)).trans rfl
  | keep => cases hcore
  | add hkind hbody hv _ ih =>
    obtain ⟨rounds, rfl⟩ := Nat.exists_eq_succ_of_ne_zero (Nat.ne_zero_of_lt hrounds)
    cases hbs with
    | cons ht hu hkey hw hx hbs =>
      simp only [List.append_assoc, List.cons_append]
      rw [nextPartIn_other ht hu hkey hw hx hkind hbody hv hbs.closes]
      exact ih hbs (Nat.lt_of_succ_lt_succ hrounds) hcore

theorem nextPartIn_cons (h : Adorned ((k, v) :: core) ms) (hk : partOf? k = some part)
    (hbs : Layout first ms bs) (hrounds : ms.length < rounds) (rest : List UInt8) :
    ∃ w x ms' bs', Blank w ∧ Blank x ∧ Adorned core ms' ∧ Layout false ms' bs' ∧
      nextPartIn rounds first (bs ++ closeBrace :: rest) =
        .ok (some part, w ++ colon :: (x ++ (v ++ (bs' ++ closeBrace :: rest)))) := by
  generalize hcore : (k, v) :: core = all at h
  induction h generalizing first bs rounds with
  | nil => cases hcore
  | @keep m core' ms hms _ =>
    obtain ⟨rfl, rfl⟩ := List.cons.inj hcore
    obtain ⟨rounds, rfl⟩ := Nat.exists_eq_succ_of_ne_zero (Nat.ne_zero_of_lt hrounds)
    cases hbs with
    | @cons _ _ _ _ t u key w x bs ht hu hkey hw hx hbs =>
      refine ⟨w, x, ms, bs, hw, hx, hms, hbs, ?_⟩
      simp only [List.append_assoc, List.cons_append]
      refine (bind_of_ok (nextKey_layout ht hu hkey)).trans ?_
      simp only [hk]
      rfl
  | add hkind hbody hv _ ih =>
    obtain ⟨rounds, rfl⟩ := Nat.exists_eq_succ_of_ne_zero (Nat.ne_zero_of_lt hrounds)
    cases hbs with
    | cons ht hu hkey hw hx hbs =>
      simp only [List.append_assoc, List.cons_append]
      rw [nextPartIn_other ht hu hkey hw hx hkind hbody hv hbs.closes]
      exact ih hbs (Nat.lt_of_succ_lt_succ hrounds) hcore

theorem length_lt_rounds (hbs : Layout first ms bs) :
    ms.length < (bs ++ closeBrace :: rest).length + 1 := by
  have hlen := hbs.length_le
  rw [List.length_append]
  omega

theorem nextPart_of_adorned_nil (h : Adorned [] ms) (hbs : Layout first ms bs) :
    nextPart first (bs ++ closeBrace :: rest) = .ok (none, closeBrace :: rest) :=
  nextPartIn_nil h hbs (length_lt_rounds hbs)

/-- Whatever stands before it, the next member that matters is found. -/
theorem nextPart_of_adorned (h : Adorned ((k, v) :: core) ms) (hk : partOf? k = some part)
    (hbs : Layout first ms bs) (rest : List UInt8) :
    ∃ w x ms' bs', Blank w ∧ Blank x ∧ Adorned core ms' ∧ Layout false ms' bs' ∧
      nextPart first (bs ++ closeBrace :: rest) =
        .ok (some part, w ++ colon :: (x ++ (v ++ (bs' ++ closeBrace :: rest)))) :=
  nextPartIn_cons h hk hbs (length_lt_rounds hbs) rest

theorem endParts_of_adorned (h : Adorned [] ms) (hbs : Layout false ms bs) :
    endParts p (bs ++ closeBrace :: rest) = .ok (p, rest) := by
  refine (bind_of_ok (nextPart_of_adorned_nil h hbs)).trans ?_
  exact (bind_of_ok endObject_close).trans rfl

/-! ## Objects -/

/-- What is read of the body once the kind is known, and up to the closing brace. -/
theorem readRest_of_adorned (h : Adorned [("body", body)] ms) (hbs : Layout false ms bs)
    {tag : Tag} (hbody : Accepts (readBody tag room) body p) :
    readRest tag room (bs ++ closeBrace :: rest) = .ok (p, rest) := by
  obtain ⟨w, x, ms', bs', hw, hx, hms', hbs', hnext⟩ := nextPart_of_adorned h rfl hbs rest
  refine (bind_of_ok hnext).trans ?_
  refine (bind_of_ok (colonMark_blank hw)).trans ?_
  refine (bind_of_ok (hbody x _ hx hbs'.closes)).trans ?_
  exact endParts_of_adorned hms' hbs'

/-- The kind first: the body is read off the text. -/
theorem readParts_of_kind_body (h : Adorned [("kind", kind), ("body", body)] ms)
    (hbs : Layout true ms bs) {tag : Tag} (hkind : Accepts (readTag tags room) kind tag)
    (hbody : Accepts (readBody tag room) body p) :
    readParts room (bs ++ closeBrace :: rest) = .ok (p, rest) := by
  obtain ⟨w, x, ms', bs', hw, hx, hms', hbs', hnext⟩ := nextPart_of_adorned h rfl hbs rest
  refine (bind_of_ok hnext).trans ?_
  refine (bind_of_ok (colonMark_blank hw)).trans ?_
  refine (bind_of_ok (hkind x _ hx hbs'.closes)).trans ?_
  exact readRest_of_adorned hms' hbs' hbody

/-- The body first: it is read as a tree. -/
theorem readParts_of_body_kind (h : Adorned [("body", body), ("kind", kind)] ms)
    (hbs : Layout true ms bs) {tag : Tag} (hkind : Accepts (readTag tags room) kind tag)
    (hbody : Accepts (value room) body j) (hp : bodyOf tag j = .ok p) :
    readParts room (bs ++ closeBrace :: rest) = .ok (p, rest) := by
  obtain ⟨w, x, ms', bs', hw, hx, hms', hbs', hnext⟩ := nextPart_of_adorned h rfl hbs rest
  refine (bind_of_ok hnext).trans ?_
  refine (bind_of_ok (colonMark_blank hw)).trans ?_
  refine (bind_of_ok (hbody x _ hx hbs'.closes)).trans ?_
  obtain ⟨w, x, ms'', bs'', hw, hx, hms'', hbs'', hnext⟩ := nextPart_of_adorned hms' rfl hbs' rest
  refine (bind_of_ok hnext).trans ?_
  refine (bind_of_ok (colonMark_blank hw)).trans ?_
  refine (bind_of_ok (hkind x _ hx hbs''.closes)).trans ?_
  have hlift : Reader.lift (bodyOf tag j) (bs'' ++ closeBrace :: rest) =
      .ok (p, bs'' ++ closeBrace :: rest) := by
    rw [hp]
    rfl
  exact (bind_of_ok hlift).trans (endParts_of_adorned hms'' hbs'')

/-! ## Arrays -/

/-- The text of an array of two values, with blanks wherever they may stand. -/
def IsPair (v w text : List UInt8) : Prop :=
  ∃ before t u x y after, Blank before ∧ Blank t ∧ Blank u ∧ Blank x ∧ Blank y ∧ Blank after ∧
    text = before ++ openBracket :: (t ++ (v ++ (u ++ comma :: (x ++ (w ++
      (y ++ closeBracket :: after))))))

theorem isPair_compact (v w : List UInt8) :
    IsPair v w (openBracket :: (v ++ comma :: (w ++ [closeBracket]))) :=
  ⟨[], [], [], [], [], [], blank_nil, blank_nil, blank_nil, blank_nil, blank_nil, blank_nil, rfl⟩

theorem nextElement_blank {w : List UInt8} (hw : Blank w) (h : Opens rest) :
    nextElement true (w ++ rest) = .ok (true, rest) := by
  have hblank : SkipsBlanks (nextElement true) := skipsBlanks_look
  exact (hblank w _ hw).trans (nextElement_item h)

theorem nextElement_comma {w x : List UInt8} (hw : Blank w) (hx : Blank x) (h : Opens rest) :
    nextElement false (w ++ comma :: (x ++ rest)) = .ok (true, rest) := by
  have hblank : SkipsBlanks (nextElement false) := skipsBlanks_look
  refine (hblank w _ hw).trans ?_
  cases rest with
  | nil => exact h.elim
  | cons b rest =>
    have hlook : look .value (x ++ b :: rest) = .ok (b, b :: rest) :=
      (look_blank hx).trans (look_cons h.1)
    refine (bind_of_ok (look_cons (by decide))).trans ?_
    rw [if_neg (by decide), if_neg (by decide), if_pos rfl]
    refine (bind_of_ok rfl).trans ?_
    refine (bind_of_ok hlook).trans ?_
    rw [if_neg h.2]
    rfl

theorem readPair_of_layout {t u x y : List UInt8} (ht : Blank t) (hu : Blank u) (hx : Blank x)
    (hy : Blank y) {tag : Tag} (hkind : Accepts (readName tags room) kind tag)
    (hkindOpens : ∀ rest, Opens (kind ++ rest)) (hbody : Accepts (readBody tag room) body p)
    (hbodyOpens : ∀ rest, Opens (body ++ rest)) :
    readPair room (t ++ (kind ++ (u ++ comma :: (x ++ (body ++ (y ++ closeBracket :: rest)))))) =
      .ok (p, rest) := by
  have hend : endArray (y ++ closeBracket :: rest) = .ok ((), rest) := by
    have hblank : SkipsBlanks endArray := skipsBlanks_look
    exact (hblank y _ hy).trans rfl
  have hclose : Closes (closeBracket :: rest) := .inr (.inr (.inl rfl))
  have hcomma : ∀ bytes, Closes (u ++ comma :: bytes) := fun _ => closes_blank hu (.inl rfl)
  refine (bind_of_ok (nextElement_blank ht (hkindOpens _))).trans ?_
  refine (bind_of_ok (hkind [] _ blank_nil (hcomma _))).trans ?_
  refine (bind_of_ok (nextElement_comma hu hx (hbodyOpens _))).trans ?_
  refine (bind_of_ok (hbody [] _ blank_nil (closes_blank hy hclose))).trans ?_
  exact (bind_of_ok hend).trans rfl

/-! ## All spellings -/

theorem skipsBlanks_value : SkipsBlanks (value room) := by
  obtain ⟨inner, h⟩ := value_eq_valueWith room
  rw [h]
  exact skipsBlanks_look

theorem skipsBlanks_readBody {tag : Tag} : SkipsBlanks (readBody tag room) := by
  cases tag with
  | app => exact skipsBlanks_value.bind
  | null | presence | fault | service | enquiry => exact skipsBlanks_look

/-- **All spellings of a payload agree.** -/
theorem decode_spellings {body : Json} (hwhole : p.isWhole = true)
    (hdecode : decode (Utf8.encode p.toJson.text) = .ok q) (hbody : p.BodySpelledAs body) :
    let kind := Utf8.encode (Json.string p.kindName).text
    let value := Utf8.encode body.text
    (∀ ms text, Adorned [("kind", kind), ("body", value)] ms → IsObject ms text →
      decode text = .ok p) ∧
    (∀ ms text, Adorned [("body", value), ("kind", kind)] ms → IsObject ms text →
      decode text = .ok p) ∧
    ∀ text, IsPair kind value text → decode text = .ok p := by
  intro kind value
  have hagrees : Agrees (readBody p.tag) (bodyOf p.tag) 126 body p :=
    agrees_body hbody hwhole (bodyDepth_le_of_decode hwhole hdecode)
  have hname : Takes (readName tags 126) (Json.string p.kindName).text p.tag :=
    (takes_readString p.kindName).check (named_kindName p)
  have hkind : Accepts (readTag tags 126) kind p.tag :=
    (takes_readTag (named_kindName p)).accepts skipsBlanks_look
  have hstream : Accepts (readBody p.tag 126) value p := hagrees.takes.accepts skipsBlanks_readBody
  have htree : Accepts (Reader.value 126) value body :=
    (reads_value hagrees.whole hagrees.depth).takes.accepts skipsBlanks_value
  have hread : SkipsBlanks (read fullRoom) := skipsBlanks_look
  refine ⟨fun ms text hms htext => ?_, fun ms text hms htext => ?_, ?_⟩
  · exact whole_isObject hread (fun _ _ hbs => readParts_of_kind_body hms hbs hkind hstream) htext
  · exact whole_isObject hread
      (fun _ _ hbs => readParts_of_body_kind hms hbs hkind htree hagrees.given) htext
  · rintro text ⟨before, t, u, x, y, after, hbefore, ht, hu, hx, hy, hafter, rfl⟩
    have hspace : after.all isSpace = true := List.all_eq_true.2 hafter
    have hpair : read fullRoom (openBracket :: (t ++ (kind ++ (u ++ comma :: (x ++ (value ++
        (y ++ closeBracket :: after))))))) = .ok (p, after) :=
      readPair_of_layout ht hu hx hy (hname.accepts skipsBlanks_readString.bind) (opens_text rfl)
        hstream hagrees.opens
    rw [decode, whole, hread _ _ hbefore, hpair]
    simp [hspace]

def twoEndpoints : Payload :=
  .presence true (.ofList [⟨.udp, "a", 1⟩, ⟨.ssh, "b", 22⟩])

/-- Its body in another spelling: the endpoints in another order and one of them twice, as an array
and as objects with their keys out of order. -/
def twoEndpointsBody : Json :=
  .object [("present", .bool true), ("endpoints", .array
    [.array [.string "SSH", .string "b", .nat 22],
     .object [("port", .nat 1), ("kind", .string "UDP"), ("host", .string "a")],
     .object [("host", .string "b"), ("port", .nat 22), ("kind", .string "SSH")]])]

theorem twoEndpoints_spelledAs : twoEndpoints.BodySpelledAs twoEndpointsBody := by
  refine .presence ⟨[⟨.ssh, "b", 22⟩, ⟨.udp, "a", 1⟩, ⟨.ssh, "b", 22⟩], ?_, fun e => ?_⟩
  · refine .cons .array (.cons (.object ?_) (.cons (.object ?_) .nil))
    · exact @List.perm_append_comm _ [_] [_, _]
    · exact @List.perm_append_comm _ [_, _] [_]
  · rw [EndpointSet.mem_ofList_iff]
    simp only [List.mem_cons, List.not_mem_nil, or_false]
    grind

theorem decode_spellings_twoEndpoints :
    let kind := Utf8.encode (Json.string "presence").text
    let value := Utf8.encode twoEndpointsBody.text
    decode (compactObject [("kind", kind), ("body", value)]) = .ok twoEndpoints ∧
    decode (compactObject [("x", Utf8.encode Json.null.text), ("body", value),
      ("", Utf8.encode (Json.string "kind").text), ("kind", kind)]) = .ok twoEndpoints ∧
    decode (openBracket :: (kind ++ comma :: (value ++ [closeBracket]))) = .ok twoEndpoints := by
  intro kind value
  have hdecode : decode (Utf8.encode twoEndpoints.toJson.text) = .ok twoEndpoints :=
    decode_encode_of_le rfl (Nat.zero_le _)
  obtain ⟨hkindFirst, hbodyFirst, hpair⟩ := decode_spellings rfl hdecode twoEndpoints_spelledAs
  refine ⟨hkindFirst _ _ (.refl _) (isObject_compactObject _), ?_, hpair _ (isPair_compact _ _)⟩
  refine hbodyFirst _ _ ?_ (isObject_compactObject _)
  exact .add (by decide) (by decide) (wellFormed_text _) <| .keep <|
    .add (by decide) (by decide) (wellFormed_text _) <| .keep .nil

end Payload

end Overlay
