import Overlay.Proofs.Wire.Message

/-!
# Writing and reading

What a message is written as is read as that message if its data nest at most 125 arrays and objects,
and is refused for its depth otherwise. All data that have ever been read nest no deeper
(`Message.bodyDepth_le_of_decode`), so a decoded message is written and read without change from then
on, whatever the text was that it came from. No text is taken for a message because its end is
missing (`Message.starves_encode`) or because something stands behind it
(`Message.decode_encode_append`).
-/

namespace Overlay

open Wire Wire.Reader

namespace Message

variable {m : Message}

/-! ## The limit -/

/-- **A message without binary numbers is read back if its data nest at most 125 arrays and objects,
and is refused for their depth if they nest more.** -/
theorem decode_encode_exact (m : Message) (hwhole : m.payload.isWhole = true) :
    (m.payload.bodyDepth ≤ 125 → decode m.encode = .ok m) ∧
      (125 < m.payload.bodyDepth → ∃ fault, decode m.encode = .error fault ∧
        fault.category = .form ∧ fault.message = "recursion limit exceeded") := by
  refine ⟨decode_encode_of_le hwhole, fun hdepth => ?_⟩
  exact ⟨_, decode_encode_of_lt hwhole hdepth, rfl, rfl⟩

/-- A message whose data are arrays inside each other. -/
def nested (n : Nat) : Message :=
  app default default default (.nest n)

theorem isWhole_nested (n : Nat) : (nested n).payload.isWhole = true :=
  Json.isWhole_nest n

theorem bodyDepth_nested (n : Nat) : (nested n).payload.bodyDepth = n :=
  Json.depth_nest n

theorem decode_encode_exact_nested :
    (nested 125).payload.isWhole = true ∧ decode (nested 125).encode = .ok (nested 125) ∧
      (nested 126).payload.isWhole = true ∧
      ∃ fault, decode (nested 126).encode = .error fault ∧
        fault.category = .form ∧ fault.message = "recursion limit exceeded" := by
  refine ⟨isWhole_nested 125, ?_, isWhole_nested 126, ?_⟩
  · exact (decode_encode_exact (nested 125) (isWhole_nested 125)).1 (by simp [bodyDepth_nested])
  · exact (decode_encode_exact (nested 126) (isWhole_nested 126)).2 (by simp [bodyDepth_nested])

/-! ## Messages that have been read -/

/-- **A message that has been read is written within the limit of the reader, and is read back as
itself if it holds no binary number.** -/
theorem encode_of_decode {bytes : List UInt8} (h : decode bytes = .ok m) :
    m.toJson.depth ≤ fullRoom ∧ (m.payload.isWhole = true → decode m.encode = .ok m) := by
  have hdepth := bodyDepth_le_of_decode h
  refine ⟨?_, fun hwhole => decode_encode_of_le hwhole hdepth⟩
  calc m.toJson.depth ≤ max 5 (m.payload.bodyDepth + 2) := m.depth_toJson_le
    _ ≤ fullRoom := by
      simp only [fullRoom]
      omega

/-- A message in a spelling that none is written in: the members in another order, one of them
unknown, the body in front of its kind, identifiers in groups and braces. -/
def respelled : List UInt8 :=
  Utf8.encode <| List.flatMap String.toList
    [" \x7b\"data\": \x7b\"body\": [1, \x7b\x7d], \"kind\": \"app\"\x7d",
     ", \"x\": [null], \"reliable\": false, \"seq\": 7",
     ", \"to\": \"CLD:\x7b00000000-0000-0000-", "0000-00000000000A\x7d\"",
     ", \"from\": \"AGT:0000000000000000", "0000000000000001:+07\"",
     ", \"type\": \"APP\"", ", \"uuid\": \"00000000-0000-", "0000-0000-000000000002\"\x7d\n"]

theorem encode_of_decode_respelled :
    ∃ m, decode respelled = .ok m ∧ m.payload.isWhole = true ∧ m.toJson.depth ≤ fullRoom ∧
      decode m.encode = .ok m := by
  have hread : ((decode respelled).toOption.any fun m => m.payload.isWhole) = true := by
    decide +kernel
  cases hm : decode respelled with
  | error fault =>
    rw [hm] at hread
    cases hread
  | ok m =>
    rw [hm] at hread
    obtain ⟨hdepth, hagain⟩ := encode_of_decode hm
    exact ⟨m, rfl, hread, hdepth, hagain hread⟩

/-! ## Texts that are cut short, and texts with something behind them -/

theorem starved_decode {p : List UInt8} (h : Starved (Message.read fullRoom p)) :
    ∃ fault, decode p = .error fault ∧ fault.category = .ending := by
  obtain ⟨what, h⟩ := h
  exact ⟨.truncated what, by simp [decode, whole, h], rfl⟩

theorem starves_encode (hwhole : m.payload.isWhole = true) (hdepth : m.payload.bodyDepth ≤ 125) :
    Starves (Message.read fullRoom) m.encode := by
  obtain ⟨d, hmembers, _⟩ := readsMembers (Payload.reads_read hwhole hdepth)
  rw [encode, toJson_eq]
  exact Schema.starves_read hmembers

theorem decode_encode_append (hwhole : m.payload.isWhole = true)
    (hdepth : m.payload.bodyDepth ≤ 125) (s : List UInt8) :
    decode (m.encode ++ s) =
      if s.all isSpace then .ok m else .error (.malformed .trailingCharacters) := by
  simp [decode, whole, read_encode_of_le hwhole hdepth s]

/-- **No proper front of the text of a message is read as anything, for want of bytes; behind the
text only blanks may stand.** -/
theorem decode_cut_or_extended (hwhole : m.payload.isWhole = true) (h : decode m.encode = .ok m) :
    (∀ p, p <+: m.encode → p ≠ m.encode →
      ∃ fault, decode p = .error fault ∧ fault.category = .ending) ∧
    (∀ s, (∀ b ∈ s, b = 0x20 ∨ b = 0x09 ∨ b = 0x0D ∨ b = 0x0A) → decode (m.encode ++ s) = .ok m) ∧
    ∀ s, ¬(∀ b ∈ s, b = 0x20 ∨ b = 0x09 ∨ b = 0x0D ∨ b = 0x0A) →
      ∃ fault, decode (m.encode ++ s) = .error fault ∧
        fault.category = .form ∧ fault.message = "trailing characters" := by
  have hdepth := bodyDepth_le_of_decode h
  have hspace : ∀ s : List UInt8,
      s.all isSpace = true ↔ ∀ b ∈ s, b = 0x20 ∨ b = 0x09 ∨ b = 0x0D ∨ b = 0x0A := by
    intro s
    simp only [List.all_eq_true, isSpace, Bool.or_eq_true, decide_eq_true_eq]
    grind
  refine ⟨fun p hp hne => starved_decode (starves_encode hwhole hdepth p ⟨hp, hne⟩), ?_, ?_⟩
  · intro s hs
    rw [decode_encode_append hwhole hdepth, if_pos ((hspace s).2 hs)]
  · intro s hs
    rw [decode_encode_append hwhole hdepth, if_neg (mt (hspace s).1 hs)]
    exact ⟨_, rfl, rfl, rfl⟩

theorem decode_cut_or_extended_nested :
    (nested 2).payload.isWhole = true ∧ decode (nested 2).encode = .ok (nested 2) ∧
      (∀ n < (nested 2).encode.length,
        ∃ fault, decode ((nested 2).encode.take n) = .error fault ∧ fault.category = .ending) ∧
      decode ((nested 2).encode ++ [0x0A]) = .ok (nested 2) ∧
      ∃ fault, decode ((nested 2).encode ++ [comma]) = .error fault ∧
        fault.category = .form ∧ fault.message = "trailing characters" := by
  have hwhole := isWhole_nested 2
  have hread : decode (nested 2).encode = .ok (nested 2) :=
    decode_encode_of_le hwhole (by simp [bodyDepth_nested])
  obtain ⟨hcut, hblank, hmore⟩ := decode_cut_or_extended hwhole hread
  have hne : ∀ n < (nested 2).encode.length, (nested 2).encode.take n ≠ (nested 2).encode :=
    fun n hn h => by
      have hlen := congrArg List.length h
      rw [List.length_take_of_le (Nat.le_of_lt hn)] at hlen
      omega
  exact ⟨hwhole, hread, fun n hn => hcut _ (List.take_prefix n _) (hne n hn),
    hblank [0x0A] (by simp), hmore [comma] (by simp [comma])⟩

end Message

end Overlay
