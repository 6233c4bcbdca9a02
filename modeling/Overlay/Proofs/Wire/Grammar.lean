import Overlay.Proofs.Wire.Record

/-!
# Well-formed texts, and values that nobody asked for

`WellFormed` says of bytes that they are the text of one JSON value: any numeral, however large, any
string whose escapes have the right form, any array and any object, with blanks where they may stand
and to any depth. A text of that form is skipped as a whole (`skipValue_wellFormed`), whatever closes
it. The skipper keeps the arrays and objects that are open on a stack, so the induction is on the
text: behind a value inside it, what is left to do depends on the stack only (`settle`).
-/

namespace Overlay.Wire

open Reader

variable {b : UInt8} {bs w v rest : List UInt8} {nest : Nest} {nests : List Nest} {rounds : Nat}

/-! ## The grammar -/

/-- Bytes that may stand between tokens. -/
def Blank (bs : List UInt8) : Prop :=
  ∀ b ∈ bs, isSpace b = true

def Digits (bs : List UInt8) : Prop :=
  bs ≠ [] ∧ ∀ b ∈ bs, isDigit b = true

/-- The digits in front of the point: a zero at the front stands alone. -/
def WholePart (bs : List UInt8) : Prop :=
  Digits bs ∧ (bs.head? = some (ascii '0') → bs = [ascii '0'])

/-- Nothing, or a point and digits. -/
def FractionPart (bs : List UInt8) : Prop :=
  bs = [] ∨ ∃ ds, Digits ds ∧ bs = ascii '.' :: ds

/-- Nothing, or a mark, at most one sign, and digits. -/
def ExponentPart (bs : List UInt8) : Prop :=
  bs = [] ∨ ∃ mark sign ds, (mark = ascii 'e' ∨ mark = ascii 'E') ∧
    sign ∈ [[], [ascii '+'], [ascii '-']] ∧ Digits ds ∧ bs = mark :: (sign ++ ds)

/-- A numeral without its sign. -/
def Numeral (bs : List UInt8) : Prop :=
  ∃ digits fraction exponent, WholePart digits ∧ FractionPart fraction ∧ ExponentPart exponent ∧
    bs = digits ++ fraction ++ exponent

/-- The letters that may stand behind a backslash. -/
def escapeLetters : List UInt8 :=
  [quote, backslash, ascii '/', ascii 'b', ascii 'f', ascii 'n', ascii 'r', ascii 't']

def hexDigits : List UInt8 :=
  "0123456789abcdefABCDEF".toList.map ascii

/-- A string behind its opening quote, up to and with the closing one. -/
inductive Quoted : List UInt8 → Prop
  | close : Quoted [quote]
  | plain {b : UInt8} {bs : List UInt8} : b ≠ quote → b ≠ backslash → 0x20 ≤ b → Quoted bs →
      Quoted (b :: bs)
  | letter {b : UInt8} {bs : List UInt8} : b ∈ escapeLetters → Quoted bs →
      Quoted (backslash :: b :: bs)
  | unit {a b c d : UInt8} {bs : List UInt8} : a ∈ hexDigits → b ∈ hexDigits → c ∈ hexDigits →
      d ∈ hexDigits → Quoted bs → Quoted (backslash :: ascii 'u' :: a :: b :: c :: d :: bs)

/-- How an array or an object begins. -/
def Reader.Nest.opener : Nest → UInt8
  | .list => openBracket
  | .object => openBrace

/-- What stands in front of a value inside an array or an object: blanks, and in an object a key and
a colon. -/
inductive Lead : Nest → List UInt8 → Prop
  | list {w : List UInt8} : Blank w → Lead .list w
  | object {u v w key : List UInt8} : Blank u → Quoted key → Blank v → Blank w →
      Lead .object (u ++ quote :: (key ++ (v ++ colon :: w)))

mutual

/-- The text of one value, without blanks around it. -/
inductive WellFormed : List UInt8 → Prop
  | null : WellFormed (Utf8.encode Json.null.text)
  | bool (value : Bool) : WellFormed (Utf8.encode (Json.bool value).text)
  | numeral {bs : List UInt8} : Numeral bs → WellFormed bs
  | negative {bs : List UInt8} : Numeral bs → WellFormed (ascii '-' :: bs)
  | string {bs : List UInt8} : Quoted bs → WellFormed (quote :: bs)
  | empty (nest : Nest) {w : List UInt8} : Blank w →
      WellFormed (nest.opener :: (w ++ [nest.closer]))
  | filled {nest : Nest} {bs : List UInt8} : Filling nest bs → WellFormed (nest.opener :: bs)

/-- One or more values inside an array or an object, up to and with the closing bracket. -/
inductive Filling : Nest → List UInt8 → Prop
  | last {nest : Nest} {lead v w : List UInt8} : Lead nest lead → WellFormed v → Blank w →
      Filling nest (lead ++ (v ++ (w ++ [nest.closer])))
  | more {nest : Nest} {lead v w bs : List UInt8} : Lead nest lead → WellFormed v → Blank w →
      Filling nest bs → Filling nest (lead ++ (v ++ (w ++ comma :: bs)))

end

/-! ## Blanks -/

theorem blank_nil : Blank [] := fun _ h => (List.not_mem_nil h).elim

theorem Blank.dropWhile (h : Blank w) : (w ++ bs).dropWhile isSpace = bs.dropWhile isSpace :=
  List.dropWhile_append_of_pos h

theorem look_blank (h : Blank w) {atEnd : Unfinished} : look atEnd (w ++ bs) = look atEnd bs := by
  simp only [look, h.dropWhile]

theorem look?_blank (h : Blank w) : look? (w ++ bs) = look? bs := by
  simp only [look?, h.dropWhile]

/-- Blanks in front of a text may be followed by what closes a value. -/
theorem closes_blank (h : Blank w) (hrest : Closes rest) : Closes (w ++ rest) := by
  cases w with
  | nil => exact hrest
  | cons b w => exact .inr (.inr (.inr (h b List.mem_cons_self)))

theorem not_isSpace_of_isDigit (h : isDigit b = true) : isSpace b = false := by
  cases hs : isSpace b with
  | false => rfl
  | true => rcases eq_of_isSpace hs with rfl | rfl | rfl | rfl <;> exact absurd h (by decide)

/-! ## Numerals -/

/-- No digit looks like a sign. -/
theorem exponentSign_append {sign ds : List UInt8} (hsign : sign ∈ [[], [ascii '+'], [ascii '-']])
    (h : Digits ds) : (exponentSign (sign ++ (ds ++ rest))).2 = ds ++ rest := by
  obtain ⟨d, ds, rfl⟩ := List.exists_cons_of_ne_nil h.1
  have hd := h.2 d List.mem_cons_self
  have hplus : d ≠ ascii '+' := by
    rintro rfl
    exact absurd hd (by decide)
  have hminus : d ≠ ascii '-' := by
    rintro rfl
    exact absurd hd (by decide)
  simp only [List.mem_cons, List.not_mem_nil, or_false] at hsign
  rcases hsign with rfl | rfl | rfl
  · simp [exponentSign, hplus, hminus]
  · rfl
  · rfl

theorem skipExponent?_part (h : ExponentPart bs) (hrest : Closes rest) :
    skipExponent? (bs ++ rest) = .ok ((), rest) := by
  rcases h with rfl | ⟨mark, sign, ds, hmark, hsign, hds, rfl⟩
  · cases rest with
    | nil => rfl
    | cons b rest =>
      have hnot : isExponentMark b = false := hrest.head (isExponentMark · = false) (by decide)
      simp only [List.nil_append, skipExponent?, hnot, Bool.false_eq_true, if_false]
  · have hmark' : isExponentMark mark = true := by
      rcases hmark with rfl | rfl <;> decide
    have hspan := spanDigits_append hds.2 hrest.head?_not_isDigit
    simp only [List.cons_append, List.append_assoc, skipExponent?, hmark', if_true, skipExponent,
      exponentSign_append hsign hds, hspan, List.isEmpty_eq_false_iff.2 hds.1, Bool.false_eq_true,
      if_false]

/-- Neither an exponent nor what closes a value begins with a digit or a point. -/
theorem ExponentPart.head (h : ExponentPart bs) (hrest : Closes rest) :
    ∀ b ∈ (bs ++ rest).head?, isDigit b = false ∧ b ≠ ascii '.' := by
  rcases h with rfl | ⟨mark, sign, ds, hmark, _, _, rfl⟩
  · cases rest with
    | nil => simp
    | cons b rest =>
      intro d hd
      rw [← Option.some.inj hd]
      exact hrest.head (fun b => isDigit b = false ∧ b ≠ ascii '.') (by decide)
  · intro d hd
    rw [← Option.some.inj hd]
    rcases hmark with rfl | rfl <;> decide

theorem skipAfterInteger_parts {fraction exponent : List UInt8} (hf : FractionPart fraction)
    (he : ExponentPart exponent) (hrest : Closes rest) :
    skipAfterInteger (fraction ++ (exponent ++ rest)) = .ok ((), rest) := by
  have hexp := skipExponent?_part he hrest
  have hhead := he.head hrest
  rcases hf with rfl | ⟨ds, ⟨hne, hds⟩, rfl⟩
  · rw [List.nil_append]
    cases hbytes : exponent ++ rest with
    | nil =>
      rw [hbytes] at hexp
      exact hexp
    | cons b bytes =>
      rw [hbytes] at hexp hhead
      rw [skipAfterInteger, if_neg (hhead b rfl).2]
      exact hexp
  · have hspan := spanDigits_append hds fun b hb => (hhead b hb).1
    simp only [List.cons_append, skipAfterInteger, if_true, hspan,
      List.isEmpty_eq_false_iff.2 hne, Bool.false_eq_true, if_false]
    exact hexp

theorem skipNumber_numeral (h : Numeral bs) (hrest : Closes rest) :
    skipNumber (bs ++ rest) = .ok ((), rest) := by
  obtain ⟨digits, fraction, exponent, ⟨⟨hne, hds⟩, hzero⟩, hf, he, rfl⟩ := h
  have hafter := skipAfterInteger_parts hf he hrest
  have hhead : ∀ b ∈ (fraction ++ (exponent ++ rest)).head?, isDigit b = false := by
    rcases hf with rfl | ⟨ds, _, rfl⟩
    · exact fun b hb => (he.head hrest b hb).1
    · intro b hb
      rw [← Option.some.inj hb]
      decide
  obtain ⟨d, ds, rfl⟩ := List.exists_cons_of_ne_nil hne
  simp only [List.cons_append, List.append_assoc]
  rw [skipNumber]
  by_cases hd : d = ascii '0'
  · obtain rfl : ds = [] := (List.cons.inj (hzero (by rw [hd]; rfl))).2
    have hnext : ((fraction ++ (exponent ++ rest)).head?.map isDigit).getD false = false := by
      cases hb : (fraction ++ (exponent ++ rest)).head? with
      | none => rfl
      | some b => exact hhead b hb
    simp only [List.nil_append, if_pos hd, hnext, Bool.false_eq_true, if_false]
    exact hafter
  · have hspan := spanDigits_append hds hhead
    rw [List.cons_append] at hspan
    simp only [if_neg hd, hds d List.mem_cons_self, if_true, hspan]
    exact hafter

/-! ## Strings -/

theorem exists_plainEscape (hb : b ∈ escapeLetters) : ∃ c, plainEscape b = some c := by
  have hall : ∀ b ∈ escapeLetters, (plainEscape b).isSome = true := by decide +kernel
  exact Option.isSome_iff_exists.1 (hall b hb)

theorem exists_hexUnit {a b c d : UInt8} (ha : a ∈ hexDigits) (hb : b ∈ hexDigits)
    (hc : c ∈ hexDigits) (hd : d ∈ hexDigits) : ∃ n, hexUnit a b c d = some n := by
  have hall : ∀ b ∈ hexDigits, (hexDigit b).isSome = true := by decide +kernel
  obtain ⟨i, hi⟩ := Option.isSome_iff_exists.1 (hall a ha)
  obtain ⟨j, hj⟩ := Option.isSome_iff_exists.1 (hall b hb)
  obtain ⟨k, hk⟩ := Option.isSome_iff_exists.1 (hall c hc)
  obtain ⟨l, hl⟩ := Option.isSome_iff_exists.1 (hall d hd)
  exact ⟨((i * 16 + j) * 16 + k) * 16 + l, by simp [hexUnit, hi, hj, hk, hl]⟩

theorem skipStringBody_quoted (h : Quoted bs) :
    skipStringBody (bs ++ rest) = .ok ((), rest) := by
  have hquote : backslash ≠ quote := by decide
  induction h with
  | close =>
    rw [List.singleton_append, skipStringBody.eq_def]
    rfl
  | @plain b bs hq hb hlow _ ih =>
    have hctrl : ¬b < 0x20 := by
      rw [UInt8.not_lt]
      exact hlow
    rw [List.cons_append, skipStringBody.eq_def]
    simp only [if_neg hq, if_neg hb, if_neg hctrl]
    exact ih
  | @letter b bs hb _ ih =>
    obtain ⟨c, hc⟩ := exists_plainEscape hb
    rw [List.cons_append, List.cons_append, skipStringBody.eq_def]
    simp only [if_neg hquote, if_true, hc]
    exact ih
  | @unit a b c d bs ha hb hc hd _ ih =>
    have hplain : plainEscape (ascii 'u') = none := by decide
    obtain ⟨n, hunit⟩ := exists_hexUnit ha hb hc hd
    simp only [List.cons_append]
    rw [skipStringBody.eq_def]
    simp only [if_neg hquote, if_true, hplain, hunit]
    exact ih

/-! ## The stack -/

/-- What is left to do behind a value: close what ends here, and skip what else is inside. -/
def settle (rounds : Nat) (nests : List Nest) : Reader Unit := do
  let nests ← skipClosers true nests
  if nests.isEmpty then return () else skipIn rounds nests

/-- Skips what stands in front of a value, the value, and all that follows. -/
def skipElement (rounds : Nat) (nest : Nest) (nests : List Nest) : Reader Unit := do
  skipKey nest
  skipIn rounds (nest :: nests)

theorem settle_nil : settle rounds [] rest = .ok ((), rest) := rfl

theorem skipIn_blank (h : Blank w) : skipIn (rounds + 1) nests (w ++ bs) =
    skipIn (rounds + 1) nests bs := by
  rw [skipIn, bind_apply, bind_apply, look_blank h]

/-- Behind an opening bracket or a value, the closing bracket ends what it closes. -/
theorem skipClosers_closer {behind : Bool} (h : Blank w) :
    skipClosers behind (nest :: nests) (w ++ nest.closer :: rest) = skipClosers true nests rest := by
  have hspace : isSpace nest.closer = false := by cases nest <;> decide
  have hcomma : (behind && decide (nest.closer = comma)) = false := by
    cases nest <;> cases behind <;> decide
  rw [skipClosers, bind_apply, look_blank h, look_cons hspace]
  simp only [hcomma, Bool.false_eq_true, if_false, if_true]
  exact bind_of_ok rfl

/-- Behind the last value the closing bracket is taken, and the array or object is a value itself. -/
theorem settle_closer (h : Blank w) :
    settle rounds (nest :: nests) (w ++ nest.closer :: rest) = settle rounds nests rest := by
  rw [settle, settle, bind_apply, skipClosers_closer h, bind_apply]

/-- Behind a comma the next value follows. -/
theorem settle_comma (h : Blank w) :
    settle rounds (nest :: nests) (w ++ comma :: rest) = skipElement rounds nest nests rest := by
  have hnext : skipClosers true (nest :: nests) (w ++ comma :: rest) =
      (do skipKey nest; return nest :: nests : Reader (List Nest)) rest := by
    rw [skipClosers, bind_apply, look_blank h, look_cons (by decide)]
    exact bind_of_ok rfl
  rw [settle, bind_apply, hnext, skipElement, bind_apply, bind_apply]
  cases skipKey nest rest with
  | error fault => rfl
  | ok r => rfl

/-- An opening bracket with something other than the closing one behind it. -/
theorem skipClosers_false (h : Blank w) (hspace : isSpace b = false) (hb : b ≠ nest.closer) :
    skipClosers false (nest :: nests) (w ++ b :: bs) =
      (do skipKey nest; return nest :: nests : Reader (List Nest)) (b :: bs) := by
  rw [skipClosers, bind_apply, look_blank h, look_cons hspace]
  simp only [Bool.false_and, Bool.false_eq_true, if_false, if_neg hb]

/-- What the skipper makes of the first byte of an array or an object. -/
theorem skipIn_opener :
    skipIn (rounds + 1) nests (nest.opener :: bs) =
      (do
        let nests ← skipClosers false (nest :: nests)
        if nests.isEmpty then return () else skipIn rounds nests : Reader Unit) bs := by
  cases nest <;> rfl

/-- A text is skipped in at least one round, each round taking at least one byte. -/
def Skips (v : List UInt8) : Prop :=
  ∃ n < v.length, ∀ rounds nests rest, Closes rest →
    skipIn (n + rounds + 1) nests (v ++ rest) = settle rounds nests rest

/-- What follows an opening bracket is skipped up to the closing one. -/
def SkipsInside (nest : Nest) (bs : List UInt8) : Prop :=
  ∃ n < bs.length, ∀ rounds nests rest, Closes rest →
    skipElement (n + rounds + 1) nest nests (bs ++ rest) = settle rounds nests rest

/-- A scalar is skipped in one round. -/
theorem Skips.scalar (hb : v ≠ []) (h : ∀ rounds nests rest, Closes rest →
    skipIn (rounds + 1) nests (v ++ rest) = settle rounds nests rest) : Skips v := by
  refine ⟨0, List.length_pos_iff.2 hb, fun rounds nests rest hrest => ?_⟩
  rw [Nat.zero_add]
  exact h rounds nests rest hrest

theorem skips_numeral (h : Numeral bs) : Skips bs := by
  have hnumber : ∀ rest, Closes rest → skipNumber (bs ++ rest) = .ok ((), rest) :=
    fun _ => skipNumber_numeral h
  obtain ⟨digits, fraction, exponent, ⟨⟨hne, hds⟩, _⟩, _, _, rfl⟩ := h
  obtain ⟨d, ds, rfl⟩ := List.exists_cons_of_ne_nil hne
  have hd := hds d List.mem_cons_self
  have hletter : ∀ c ∈ ['n', 't', 'f', '-'], d ≠ ascii c := by
    rintro c hc rfl
    simp only [List.mem_cons, List.not_mem_nil, or_false] at hc
    rcases hc with rfl | rfl | rfl | rfl <;> exact absurd hd (by decide)
  refine .scalar (by simp) fun rounds nests rest hrest => ?_
  have hskip := hnumber rest hrest
  simp only [List.cons_append, List.append_assoc] at hskip ⊢
  rw [skipIn]
  refine (bind_of_ok (look_cons (not_isSpace_of_isDigit hd))).trans ?_
  rw [if_neg (hletter 'n' (by simp)), if_neg (hletter 't' (by simp)),
    if_neg (hletter 'f' (by simp)), if_neg (hletter '-' (by simp)), if_pos hd]
  exact (bind_of_ok hskip).trans rfl

theorem skips_negative (h : Numeral bs) : Skips (ascii '-' :: bs) := by
  refine .scalar (by simp) fun rounds nests rest hrest => ?_
  rw [List.cons_append, skipIn]
  refine (bind_of_ok (look_cons (by decide))).trans ?_
  refine (bind_of_ok rfl).trans ?_
  exact (bind_of_ok (skipNumber_numeral h hrest)).trans rfl

theorem skips_string (h : Quoted bs) : Skips (quote :: bs) := by
  refine .scalar (by simp) fun rounds nests rest _ => ?_
  rw [List.cons_append, skipIn]
  refine (bind_of_ok (look_cons (by decide))).trans ?_
  refine (bind_of_ok rfl).trans ?_
  exact (bind_of_ok (skipStringBody_quoted h)).trans rfl

theorem skips_null : Skips (Utf8.encode Json.null.text) :=
  .scalar (by decide) fun _ _ _ _ => rfl

theorem skips_bool (value : Bool) : Skips (Utf8.encode (Json.bool value).text) := by
  refine .scalar (by cases value <;> decide) fun _ _ _ _ => ?_
  cases value <;> rfl

theorem skips_empty (nest : Nest) (h : Blank w) : Skips (nest.opener :: (w ++ [nest.closer])) := by
  refine .scalar (by simp) fun rounds nests rest _ => ?_
  simp only [List.cons_append, List.append_assoc, List.nil_append]
  rw [skipIn_opener, settle, bind_apply, skipClosers_closer h, bind_apply]

/-! ## Arrays and objects -/

/-- No value begins with a blank or a closing bracket. -/
theorem opens_wellFormed (h : WellFormed v) (rest : List UInt8) : Opens (v ++ rest) := by
  cases h with
  | null => exact ⟨by decide, by decide⟩
  | bool value => cases value <;> exact ⟨by decide, by decide⟩
  | numeral h =>
    obtain ⟨digits, fraction, exponent, ⟨⟨hne, hds⟩, _⟩, _, _, rfl⟩ := h
    obtain ⟨d, ds, rfl⟩ := List.exists_cons_of_ne_nil hne
    have hd := hds d List.mem_cons_self
    refine ⟨not_isSpace_of_isDigit hd, ?_⟩
    rintro rfl
    exact absurd hd (by decide)
  | negative => exact ⟨by decide, by decide⟩
  | string => exact ⟨by decide, by decide⟩
  | empty nest => cases nest <;> exact ⟨by decide, by decide⟩
  | @filled nest => cases nest <;> exact ⟨by decide, by decide⟩

theorem skipKey_object {u key : List UInt8} (hu : Blank u) (hkey : Quoted key) (hv : Blank v) :
    skipKey .object (u ++ quote :: (key ++ (v ++ colon :: bs))) = .ok ((), bs) := by
  rw [skipKey, bind_apply, look_blank hu, look_cons (by decide)]
  refine (bind_of_ok rfl).trans ?_
  refine (bind_of_ok (skipStringBody_quoted hkey)).trans ?_
  rw [bind_apply, look_blank hv, look_cons (by decide)]
  rfl

theorem skipElement_lead {lead : List UInt8} (h : Lead nest lead) :
    skipElement (rounds + 1) nest nests (lead ++ bs) = skipIn (rounds + 1) (nest :: nests) bs := by
  cases h with
  | list hw => exact skipIn_blank hw
  | object hu hkey hv hw =>
    simp only [List.append_assoc, List.cons_append]
    refine (bind_of_ok (skipKey_object hu hkey hv)).trans ?_
    exact skipIn_blank hw

theorem skipElement_blank (h : Blank w) :
    skipElement (rounds + 1) nest nests (w ++ bs) = skipElement (rounds + 1) nest nests bs := by
  cases nest with
  | list => exact skipIn_blank h
  | object => rw [skipElement, skipKey, bind_apply, bind_apply, bind_apply, bind_apply, look_blank h]

/-- What stands behind an opening bracket is not its closing one. -/
theorem Filling.front (h : Filling nest bs) (rest : List UInt8) :
    ∃ w b t, Blank w ∧ bs ++ rest = w ++ b :: t ∧ isSpace b = false ∧ b ≠ nest.closer := by
  have front : ∀ {lead v t}, Lead nest lead → WellFormed v →
      ∃ w b t', Blank w ∧ lead ++ (v ++ t) = w ++ b :: t' ∧ isSpace b = false ∧
        b ≠ nest.closer := by
    intro lead v t hlead hv
    cases hlead with
    | list hw =>
      have hopens := opens_wellFormed hv t
      cases hbytes : v ++ t with
      | nil =>
        rw [hbytes] at hopens
        exact hopens.elim
      | cons b t' =>
        rw [hbytes] at hopens
        exact ⟨lead, b, t', hw, rfl, hopens⟩
    | @object u _ _ _ hu =>
      simp only [List.append_assoc, List.cons_append]
      exact ⟨u, quote, _, hu, rfl, by decide, by decide⟩
  cases h with
  | last hlead hv => simpa only [List.append_assoc] using front hlead hv
  | more hlead hv => simpa only [List.append_assoc] using front hlead hv

theorem skipIn_filling (h : Filling nest bs) :
    skipIn (rounds + 2) nests (nest.opener :: (bs ++ rest)) =
      skipElement (rounds + 1) nest nests (bs ++ rest) := by
  obtain ⟨w, b, t, hw, hbytes, hspace, hb⟩ := h.front rest
  rw [hbytes, skipIn_opener, bind_apply, skipClosers_false hw hspace hb, skipElement_blank hw,
    skipElement, bind_apply, bind_apply]
  cases skipKey nest (b :: t) with
  | error fault => rfl
  | ok r => rfl

mutual

theorem skips_wellFormed : ∀ {v : List UInt8}, WellFormed v → Skips v
  | _, .null => skips_null
  | _, .bool value => skips_bool value
  | _, .numeral h => skips_numeral h
  | _, .negative h => skips_negative h
  | _, .string h => skips_string h
  | _, .empty nest h => skips_empty nest h
  | _, .filled h => by
    obtain ⟨n, hn, hskip⟩ := skipsInside_filling h
    refine ⟨n + 1, Nat.succ_lt_succ hn, fun rounds nests rest hrest => ?_⟩
    rw [Nat.add_right_comm n 1 rounds]
    exact (skipIn_filling h).trans (hskip rounds nests rest hrest)

theorem skipsInside_filling : ∀ {nest : Nest} {bs : List UInt8}, Filling nest bs →
    SkipsInside nest bs
  | nest, _, .last hlead hv hw => by
    obtain ⟨n, hn, hskip⟩ := skips_wellFormed hv
    refine ⟨n, ?_, fun rounds nests rest hrest => ?_⟩
    · simp only [List.length_append]
      omega
    · have hcloses : Closes (nest.closer :: rest) := by
        cases nest
        · exact .inr (.inr (.inl rfl))
        · exact .inr (.inl rfl)
      simp only [List.append_assoc, List.singleton_append]
      rw [skipElement_lead hlead, hskip _ _ _ (closes_blank hw hcloses), settle_closer hw]
  | nest, _, .more hlead hv hw h => by
    obtain ⟨n, hn, hskip⟩ := skips_wellFormed hv
    obtain ⟨m, hm, hskips⟩ := skipsInside_filling h
    refine ⟨n + m + 1, ?_, fun rounds nests rest hrest => ?_⟩
    · simp only [List.length_append, List.length_cons]
      omega
    · have hrounds : n + m + 1 + rounds = n + (m + rounds + 1) := by omega
      have hcloses : ∀ bs, Closes (comma :: bs) := fun _ => .inl rfl
      simp only [List.append_assoc, List.cons_append]
      rw [hrounds, skipElement_lead hlead, hskip _ _ _ (closes_blank hw (hcloses _)),
        settle_comma hw, hskips rounds nests rest hrest]

end

/-- **The text of a value is skipped as a whole, whatever its form and its depth.** -/
theorem skipValue_wellFormed (h : WellFormed v) (hw : Blank w) (hrest : Closes rest) :
    skipValue (w ++ (v ++ rest)) = .ok ((), rest) := by
  obtain ⟨n, hn, hskip⟩ := skips_wellFormed h
  obtain ⟨more, hmore⟩ := Nat.exists_eq_add_of_le (Nat.le_of_lt hn)
  have hlen : (w ++ (v ++ rest)).length = n + (w.length + more + rest.length) := by
    simp only [List.length_append]
    omega
  rw [skipValue, skipIn_blank hw, hlen, hskip _ _ _ hrest, settle_nil]

end Overlay.Wire
