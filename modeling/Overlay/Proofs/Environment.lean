import Overlay.Proofs.Numerals
import Overlay.Settings.Environment

/-!
# Settings from any environment

`Variable.Sets` says of a text that it sets a variable to a number: but for white space around it,
it is a decimal numeral of that number, which is positive and not too large for the variable.
Settings follow an environment if they hold the numbers of the variables that are set and the
standard ones of the others (`Settings.Follows`), and an error blames the first variable that is set
to a text which sets it to nothing (`SettingsError.Blames`). An environment comes to the settings
that follow it or to the error that blames it (`ofEnvironment_eq_ok_iff`,
`ofEnvironment_eq_error_iff`).

A timeout that comes from an environment is a whole number of milliseconds that fits a word, so
nothing is lost when it is cut down to that (`sensible_of_exact`).
-/

namespace Overlay

/-! ## White space around a text -/

namespace Text

variable {s t a b : List Char}

theorem dropWhile_of_none (ht : ∀ c ∈ t, isBlank c = false) : t.dropWhile isBlank = t := by
  cases t with
  | nil => rfl
  | cons c t => rw [List.dropWhile_cons_of_neg (by simp [ht c List.mem_cons_self])]

theorem trim_append (ha : ∀ c ∈ a, isBlank c = true) (ht : ∀ c ∈ t, isBlank c = false)
    (hne : t ≠ []) (hb : ∀ c ∈ b, isBlank c = true) : trim (a ++ t ++ b) = t := by
  obtain ⟨c, rest, rfl⟩ := List.exists_cons_of_ne_nil hne
  have hc : ¬isBlank c = true := by simp [ht c List.mem_cons_self]
  have hfront : (a ++ (c :: rest) ++ b).dropWhile isBlank = c :: rest ++ b := by
    rw [List.append_assoc, List.dropWhile_append_of_pos ha, List.cons_append,
      List.dropWhile_cons_of_neg hc]
  rw [trim, hfront, List.reverse_append,
    List.dropWhile_append_of_pos fun c hc => hb c (List.mem_reverse.1 hc),
    dropWhile_of_none fun c hc => ht c (List.mem_reverse.1 hc), List.reverse_reverse]

/-- What is trimmed off is white space at the ends. -/
theorem exists_trim (s : List Char) :
    ∃ a b, s = a ++ trim s ++ b ∧ ∀ c ∈ a ++ b, isBlank c = true := by
  let t := s.dropWhile isBlank
  refine ⟨s.takeWhile isBlank, (t.reverse.takeWhile isBlank).reverse, ?_, ?_⟩
  · rw [trim, List.append_assoc, ← List.reverse_append, List.takeWhile_append_dropWhile,
      List.reverse_reverse, List.takeWhile_append_dropWhile]
  · intro c hc
    rcases List.mem_append.1 hc with hc | hc
    · exact List.all_eq_true.1 List.all_takeWhile c hc
    · exact List.all_eq_true.1 List.all_takeWhile c (List.mem_reverse.1 hc)

/-- A digit is no white space. -/
theorem not_isBlank_of_isDigit {base d : Nat} {c : Char} (h : Radix.IsDigit base c d) :
    isBlank c = false := by
  have hvalue := Radix.digitValue_eq_some_iff.2 h.2
  have hrange : 0x30 ≤ c.toNat ∧ c.toNat ≤ 0x39 ∨ 0x41 ≤ c.toNat ∧ c.toNat ≤ 0x5A ∨
      0x61 ≤ c.toNat ∧ c.toNat ≤ 0x7A := by
    simp only [Radix.digitValue] at hvalue
    grind
  simp only [isBlank, inRanges, blankRanges, List.any_cons, List.any_nil, Bool.or_false,
    Bool.or_eq_false_iff, Bool.and_eq_false_iff, decide_eq_false_iff_not]
  omega

theorem not_isBlank_of_numeral {base n : Nat} (h : Radix.Numeral base t n) :
    ∀ c ∈ t, isBlank c = false := by
  intro c hc
  rcases h.exists_isDigit hc with rfl | ⟨d, hd⟩
  · decide
  · exact not_isBlank_of_isDigit hd

end Text

/-! ## One variable -/

/-- Whether a text, but for white space around it, is a decimal numeral of a number. -/
def Variable.Means (text : String) (n : Nat) : Prop :=
  ∃ a numeral b, text.toList = a ++ numeral ++ b ∧ (∀ c ∈ a ++ b, Text.isBlank c = true) ∧
    Radix.Numeral 10 numeral n

namespace Variable

/-- The least number that is too large for a variable: what no word of 64 or of 32 bits holds. -/
def limit : Variable → Nat
  | .agentTimeout => 0x10000000000000000
  | .agentRetries => 0x100000000
  | .joinTimeout => 0x10000000000000000

/-- Whether a text sets a variable to a number: it means a positive one that is not too large. -/
def Sets (v : Variable) (text : String) (n : Nat) : Prop :=
  Means text n ∧ 1 ≤ n ∧ n < v.limit

/-- The place of a variable in the order in which they are looked up. -/
def rank : Variable → Nat
  | .agentTimeout => 0
  | .agentRetries => 1
  | .joinTimeout => 2

/-- What one of a variable's number stands for in settings: a millisecond has a million nanoseconds,
and a retry is a retry. -/
def unit : Variable → Nat
  | .agentTimeout => 1000000
  | .agentRetries => 1
  | .joinTimeout => 1000000

end Variable

/-- What settings hold for a variable, a timeout in nanoseconds. -/
def Settings.holds (s : Settings) : Variable → Nat
  | .agentTimeout => s.agentTimeout.nanos
  | .agentRetries => s.agentRetries.toNat
  | .joinTimeout => s.joinTimeout.nanos

/-- Whether settings are those of an environment: each variable's number where it is set, and
otherwise the standard. -/
structure Settings.Follows (s : Settings) (env : Variable → Option String) : Prop where
  unset : ∀ v, env v = none → s.holds v = standard.holds v
  given : ∀ v text, env v = some text → ∃ n, v.Sets text n ∧ s.holds v = n * v.unit
  dispatch : s.dispatch = standard.dispatch

/-- Whether an error is about the first variable that is set to a text which cannot set it. -/
structure SettingsError.Blames (e : SettingsError) (env : Variable → Option String) : Prop where
  text : env e.setting = some e.text
  bad : ∀ n, ¬e.setting.Sets e.text n
  first : ∀ v, v.rank < e.setting.rank → ∀ text, env v = some text → ∃ n, v.Sets text n

namespace Settings

variable {env : Variable → Option String} {v : Variable} {s t : Settings} {e : SettingsError}
  {text : String} {limit n : Nat}

theorem positive?_eq_some_iff (hlimit : 0 < limit) :
    positive? limit text = some n ↔ Variable.Means text n ∧ 1 ≤ n ∧ n < limit := by
  unfold positive?
  constructor
  · intro h
    split at h
    · next m hread =>
      obtain ⟨hm, hlt⟩ := (Radix.read_eq_ok_iff hlimit).1 hread
      obtain ⟨a, b, htext, hblank⟩ := Text.exists_trim text.toList
      rw [Option.ite_none_left_eq_some] at h
      obtain ⟨hpos, h⟩ := h
      cases h
      exact ⟨⟨a, _, b, htext, hblank, hm⟩, Nat.pos_of_ne_zero hpos, hlt⟩
    · contradiction
  · rintro ⟨⟨a, numeral, b, htext, hblank, hnumeral⟩, hpos, hlt⟩
    have hne : numeral ≠ [] := by
      rintro rfl
      exact hnumeral.1 rfl
    have htrim : Text.trim text.toList = numeral := by
      rw [htext]
      exact Text.trim_append (fun c hc => hblank c (List.mem_append_left b hc))
        (Text.not_isBlank_of_numeral hnumeral) hne
        fun c hc => hblank c (List.mem_append_right a hc)
    rw [htrim, (Radix.read_eq_ok_iff hlimit).2 ⟨hnumeral, hlt⟩]
    exact if_neg (by omega)

/-! ## All variables -/

def usual : Variable → Nat
  | .agentTimeout => 60000
  | .agentRetries => 3
  | .joinTimeout => 5000

def number (env : Variable → Option String) (v : Variable) : Except SettingsError Nat :=
  lookUp v v.limit (usual v) (env v)

def assemble (f : Variable → Nat) : Settings :=
  { standard with
    agentTimeout := .ofMillis (UInt64.ofNat (f .agentTimeout))
    agentRetries := UInt32.ofNat (f .agentRetries)
    joinTimeout := .ofMillis (UInt64.ofNat (f .joinTimeout)) }

theorem limit_pos (v : Variable) : 0 < v.limit := by
  cases v <;> decide

theorem positive?_limit {m : Nat} : positive? v.limit text = some m ↔ v.Sets text m :=
  positive?_eq_some_iff (limit_pos v)

theorem number_eq_ok_iff : number env v = .ok n ↔
    (env v = none ∧ n = usual v) ∨ ∃ text, env v = some text ∧ v.Sets text n := by
  unfold number lookUp
  cases env v with
  | none => simp [eq_comm]
  | some text => cases hp : positive? v.limit text <;> simp [← positive?_limit, hp]

theorem number_eq_error_iff : number env v = .error e ↔
    ∃ text, env v = some text ∧ (∀ n, ¬v.Sets text n) ∧ e = ⟨v, text⟩ := by
  unfold number lookUp
  cases env v with
  | none => simp
  | some text => cases hp : positive? v.limit text <;> simp [← positive?_limit, hp, eq_comm]

/-- The variables are looked up one after the other, and the first that is bad ends it. -/
theorem ofEnvironment_cases (env : Variable → Option String) :
    (∃ f : Variable → Nat, (∀ v, number env v = .ok (f v)) ∧
      ofEnvironment env = .ok (assemble f)) ∨
    ∃ v e, number env v = .error e ∧ (∀ w, w.rank < v.rank → ∃ n, number env w = .ok n) ∧
      ofEnvironment env = .error e := by
  have hsteps : ofEnvironment env =
      (number env .agentTimeout).bind fun timeout =>
        (number env .agentRetries).bind fun retries =>
          (number env .joinTimeout).bind fun join => .ok (assemble fun
            | .agentTimeout => timeout
            | .agentRetries => retries
            | .joinTimeout => join) := rfl
  rw [hsteps]
  cases hagent : number env .agentTimeout with
  | error e => exact .inr ⟨.agentTimeout, e, hagent, fun w hw => absurd hw (Nat.not_lt_zero _), rfl⟩
  | ok timeout =>
    cases hretries : number env .agentRetries with
    | error e =>
      refine .inr ⟨.agentRetries, e, hretries, ?_, rfl⟩
      intro w hw
      cases w with
      | agentTimeout => exact ⟨timeout, hagent⟩
      | agentRetries => exact absurd hw (by decide)
      | joinTimeout => exact absurd hw (by decide)
    | ok retries =>
      cases hjoin : number env .joinTimeout with
      | error e =>
        refine .inr ⟨.joinTimeout, e, hjoin, ?_, rfl⟩
        intro w hw
        cases w with
        | agentTimeout => exact ⟨timeout, hagent⟩
        | agentRetries => exact ⟨retries, hretries⟩
        | joinTimeout => exact absurd hw (by decide)
      | ok join =>
        refine .inl ⟨_, ?_, rfl⟩
        intro v
        cases v with
        | agentTimeout => exact hagent
        | agentRetries => exact hretries
        | joinTimeout => exact hjoin

theorem number_range (h : number env v = .ok n) : 1 ≤ n ∧ n < v.limit := by
  rcases number_eq_ok_iff.1 h with ⟨-, rfl⟩ | ⟨text, -, -, hn⟩
  · cases v <;> decide
  · exact hn

theorem holds_standard (v : Variable) : standard.holds v = usual v * v.unit := by
  cases v <;> rfl

theorem holds_assemble {f : Variable → Nat} (hf : f v < v.limit) :
    (assemble f).holds v = f v * v.unit := by
  cases v with
  | agentTimeout => exact congrArg (· * 1000000) (UInt64.toNat_ofNat_of_lt' hf)
  | agentRetries => exact (UInt32.toNat_ofNat_of_lt' hf).trans (Nat.mul_one _).symm
  | joinTimeout => exact congrArg (· * 1000000) (UInt64.toNat_ofNat_of_lt' hf)

/-- Settings are known by what they hold for the variables and by their way of dispatch. -/
theorem eq_of_holds (h : ∀ v, s.holds v = t.holds v) (hdispatch : s.dispatch = t.dispatch) :
    s = t := by
  obtain ⟨⟨timeout, _⟩, retries, ⟨join, _⟩, dispatch⟩ := s
  obtain ⟨⟨timeout', _⟩, retries', ⟨join', _⟩, dispatch'⟩ := t
  obtain rfl : timeout = timeout' := h .agentTimeout
  obtain rfl : retries = retries' := UInt32.toNat_inj.1 (h .agentRetries)
  obtain rfl : join = join' := h .joinTimeout
  obtain rfl : dispatch = dispatch' := hdispatch
  rfl

/-- What settings hold that follow an environment are the numbers of the variables in it. -/
theorem follows_iff : s.Follows env ↔
    (∀ v, ∃ n, number env v = .ok n ∧ s.holds v = n * v.unit) ∧
      s.dispatch = standard.dispatch := by
  constructor
  · intro h
    refine ⟨?_, h.dispatch⟩
    intro v
    cases hv : env v with
    | none =>
      refine ⟨usual v, number_eq_ok_iff.2 (.inl ⟨hv, rfl⟩), ?_⟩
      rw [h.unset v hv, holds_standard]
    | some text =>
      obtain ⟨n, hn, hs⟩ := h.given v text hv
      exact ⟨n, number_eq_ok_iff.2 (.inr ⟨text, hv, hn⟩), hs⟩
  · rintro ⟨hnumbers, hdispatch⟩
    refine ⟨?_, ?_, hdispatch⟩
    · intro v hv
      obtain ⟨n, hn, hs⟩ := hnumbers v
      rcases number_eq_ok_iff.1 hn with ⟨-, rfl⟩ | ⟨text, htext, -⟩
      · rw [hs, holds_standard]
      · rw [hv] at htext
        contradiction
    · intro v text hv
      obtain ⟨n, hn, hs⟩ := hnumbers v
      rcases number_eq_ok_iff.1 hn with ⟨hnone, -⟩ | ⟨text', htext, hsets⟩
      · rw [hv] at hnone
        contradiction
      · rw [hv] at htext
        cases htext
        exact ⟨n, hsets, hs⟩

theorem exists_number_iff : (∃ n, number env v = .ok n) ↔
    ∀ text, env v = some text → ∃ n, v.Sets text n := by
  simp only [number_eq_ok_iff]
  cases env v <;> simp

theorem blames_iff : e.Blames env ↔
    number env e.setting = .error e ∧
      ∀ v, v.rank < e.setting.rank → ∃ n, number env v = .ok n := by
  simp only [exists_number_iff, number_eq_error_iff]
  constructor
  · intro h
    exact ⟨⟨e.text, h.text, h.bad, rfl⟩, h.first⟩
  · rintro ⟨⟨text, htext, hbad, he⟩, hfirst⟩
    have htexts : e.text = text := congrArg SettingsError.text he
    subst htexts
    exact ⟨htext, hbad, hfirst⟩

theorem rank_injective {v w : Variable} (h : v.rank = w.rank) : v = w := by
  cases v <;> cases w <;> first | rfl | contradiction

theorem ofEnvironment_eq_ok_iff : ofEnvironment env = .ok s ↔ s.Follows env := by
  rw [follows_iff]
  rcases ofEnvironment_cases env with ⟨f, hf, hok⟩ | ⟨v, e, he, -, herror⟩
  · have hholds : ∀ v, (assemble f).holds v = f v * v.unit :=
      fun v => holds_assemble (number_range (hf v)).2
    rw [hok]
    constructor
    · rintro ⟨⟩
      exact ⟨fun v => ⟨f v, hf v, hholds v⟩, rfl⟩
    · rintro ⟨hnumbers, hdispatch⟩
      refine congrArg Except.ok (eq_of_holds ?_ hdispatch.symm)
      intro v
      obtain ⟨n, hn, hs⟩ := hnumbers v
      rw [hf v] at hn
      cases hn
      rw [hholds, hs]
  · rw [herror]
    constructor
    · intro h
      contradiction
    · rintro ⟨hnumbers, -⟩
      obtain ⟨n, hn, -⟩ := hnumbers v
      rw [he] at hn
      contradiction

theorem ofEnvironment_eq_error_iff : ofEnvironment env = .error e ↔ e.Blames env := by
  rw [blames_iff]
  rcases ofEnvironment_cases env with ⟨f, hf, hok⟩ | ⟨v, e', he, hbefore, herror⟩
  · rw [hok]
    constructor
    · intro h
      contradiction
    · rintro ⟨he, -⟩
      rw [hf] at he
      contradiction
  · obtain ⟨text, -, -, rfl⟩ := number_eq_error_iff.1 he
    rw [herror]
    constructor
    · rintro ⟨⟩
      exact ⟨he, hbefore⟩
    · rintro ⟨he', hbefore'⟩
      rcases Nat.lt_trichotomy v.rank e.setting.rank with hlt | heq | hgt
      · obtain ⟨n, hn⟩ := hbefore' v hlt
        rw [he] at hn
        contradiction
      · have hv := rank_injective heq
        subst hv
        rw [he'] at he
        exact congrArg Except.error (Except.error.inj he).symm
      · obtain ⟨n, hn⟩ := hbefore e.setting hgt
        rw [he'] at hn
        contradiction

theorem exists_ofEnvironment_iff : (∃ s, ofEnvironment env = .ok s) ↔
    ∀ v text, env v = some text → ∃ n, v.Sets text n := by
  simp only [← exists_number_iff]
  rcases ofEnvironment_cases env with ⟨f, hf, hok⟩ | ⟨v, e, he, -, herror⟩
  · exact iff_of_true ⟨_, hok⟩ fun v => ⟨f v, hf v⟩
  · refine iff_of_false ?_ ?_
    · rintro ⟨s, hs⟩
      rw [herror] at hs
      contradiction
    · intro h
      obtain ⟨n, hn⟩ := h v
      rw [he] at hn
      contradiction

/-! ## Periods -/

theorem nanos_probePeriod (s : Settings) :
    s.probePeriod.nanos = max (s.agentTimeout.nanos / 2) 1000000 := by
  have hhalf : s.agentTimeout.half.nanos = s.agentTimeout.nanos / 2 := rfl
  have hmilli : (Duration.ofMillis 1).nanos = 1000000 := rfl
  unfold probePeriod Duration.max
  split <;> omega

/-- Whether the times that liveness works with are those that the settings say: the period of the
passes is at least a millisecond and at most the agent timeout, and the milliseconds that silence is
compared with are exact, but that the product with the retries stops at the greatest word. -/
structure Sensible (s : Settings) : Prop where
  millisecond_le_period : 1000000 ≤ s.probePeriod.nanos
  period_le_timeout : s.probePeriod.nanos ≤ s.agentTimeout.nanos
  timeout_exact : s.agentTimeoutMillis * 1000000 = s.agentTimeout.nanos
  timeout_le_eviction : s.agentTimeoutMillis ≤ s.evictionMillis
  eviction_eq : s.evictionMillis =
    min (s.agentTimeout.millis * s.agentRetries.toNat) 0xFFFFFFFFFFFFFFFF

/-- With a timeout of whole milliseconds that fit a word nothing is cut off, and with a retry nobody
is given up before being asked. -/
theorem sensible_of_exact (hexact : s.agentTimeout.nanos = n * 1000000) (hpos : 1 ≤ n)
    (hlt : n < 0x10000000000000000) (hretries : 1 ≤ s.agentRetries.toNat) : s.Sensible := by
  have hperiod := s.nanos_probePeriod
  have hmillis : s.agentTimeout.millis = n := by
    rw [Duration.millis]
    omega
  have hword : s.agentTimeoutMillis = n := by
    rw [agentTimeoutMillis, hmillis]
    exact Nat.mod_eq_of_lt hlt
  have heviction : s.evictionMillis = min (n * s.agentRetries.toNat) 0xFFFFFFFFFFFFFFFF := by
    rw [evictionMillis, hword]
    rfl
  have hproduct : n ≤ n * s.agentRetries.toNat := Nat.le_mul_of_pos_right n hretries
  exact {
    millisecond_le_period := by omega
    period_le_timeout := by omega
    timeout_exact := by rw [hword, hexact]
    timeout_le_eviction := by omega
    eviction_eq := by rw [heviction, hmillis] }

/-- **Settings from the environment.** There are some exactly if every variable that is set has a
text that sets it, and then they are those that follow the environment, and are sensible; otherwise
the first variable that is bad is blamed. -/
theorem ofEnvironment_exact (env : Variable → Option String) :
    ((∃ s, ofEnvironment env = .ok s) ↔ ∀ v text, env v = some text → ∃ n, v.Sets text n) ∧
      (∀ s, ofEnvironment env = .ok s ↔ s.Follows env) ∧
      (∀ e, ofEnvironment env = .error e ↔ e.Blames env) ∧
      ∀ s, ofEnvironment env = .ok s → s.Sensible := by
  refine ⟨exists_ofEnvironment_iff, fun s => ofEnvironment_eq_ok_iff,
    fun e => ofEnvironment_eq_error_iff, ?_⟩
  intro s hs
  obtain ⟨hnumbers, -⟩ := follows_iff.1 (ofEnvironment_eq_ok_iff.1 hs)
  obtain ⟨timeout, htimeout, hnanos⟩ := hnumbers .agentTimeout
  obtain ⟨retries, hretries, hcount⟩ := hnumbers .agentRetries
  obtain ⟨hpos, hlt⟩ := number_range htimeout
  have hcount : s.agentRetries.toNat = retries := hcount.trans (Nat.mul_one retries)
  have hretries := (number_range hretries).1
  exact sensible_of_exact hnanos hpos hlt (by omega)

/-- The longest timeout there is and the most retries, with white space, a sign and zeros. -/
def extremes : Variable → Option String
  | .agentTimeout => some "\u2003+0018446744073709551615\n"
  | .agentRetries => some "04294967295 "
  | .joinTimeout => none

theorem ofEnvironment_exact_extremes :
    ofEnvironment extremes =
        .ok ⟨.ofMillis 18446744073709551615, 4294967295, .ofMillis 5000, .worker⟩ ∧
      Sensible ⟨.ofMillis 18446744073709551615, 4294967295, .ofMillis 5000, .worker⟩ := by
  have hs : ofEnvironment extremes =
      .ok ⟨.ofMillis 18446744073709551615, 4294967295, .ofMillis 5000, .worker⟩ := rfl
  exact ⟨hs, (ofEnvironment_exact extremes).2.2.2 _ hs⟩

end Settings

end Overlay
