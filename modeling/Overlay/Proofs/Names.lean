import Overlay.Endpoint
import Overlay.Identity.Text
import Overlay.Proofs.Text

/-!
# Names, there and back

The written forms of identifiers and identities are read back as what was written, and a set of
endpoints is the set of the endpoints that it lists.
-/

namespace Overlay

/-! ## Identifiers -/

namespace Uuid

variable {u : Uuid}

theorem length_simple : u.simple.length = 32 :=
  Radix.length_writePadded 16 32 u.toNat

theorem ofNat_toNat : ofNat u.toNat = u := by
  obtain ⟨n, hn⟩ := u
  simp [ofNat, Nat.mod_eq_of_lt hn]

theorem ofSimple?_simple : ofSimple? u.simple = some u := by
  unfold ofSimple?
  rw [if_pos length_simple, simple,
    Radix.readDigits_writePadded (by decide) (by decide) u.toNat_lt u.toNat_lt]
  exact congrArg some ofNat_toNat

theorem parse?_simple : parse? u.simple = some u := by
  rw [parse?, ofSimple?_simple, Option.some_or]

/-- Five groups with hyphens between them are read as the groups without hyphens. -/
theorem ofHyphenated?_groups {a b c d e : List Char} (ha : a.length = 8) (hb : b.length = 4)
    (hc : c.length = 4) (hd : d.length = 4) (he : e.length = 12) :
    ofHyphenated? (a ++ '-' :: b ++ '-' :: c ++ '-' :: d ++ '-' :: e) =
      ofSimple? (a ++ b ++ c ++ d ++ e) := by
  unfold ofHyphenated?
  rw [if_pos]
  · simp [List.drop_append, ha, hb, hc, hd, List.drop_of_length_le]
  · simp [ha, hb, hc, hd, he]

theorem ofHyphenated?_hyphenated : ofHyphenated? u.hyphenated = some u := by
  have hlen := length_simple (u := u)
  unfold hyphenated
  rw [ofHyphenated?_groups (by simp [hlen]) (by simp [hlen]) (by simp [hlen]) (by simp [hlen])
    (by simp [hlen])]
  have hjoin : u.simple.take 8 ++ (u.simple.drop 8).take 4 ++ (u.simple.drop 12).take 4 ++
      (u.simple.drop 16).take 4 ++ u.simple.drop 20 = u.simple := by
    rw [← List.take_add, ← List.take_add, ← List.take_add, List.take_append_drop]
  rw [hjoin, ofSimple?_simple]

theorem length_hyphenated : u.hyphenated.length = 36 := by
  simp [hyphenated, length_simple]

theorem parse?_hyphenated : parse? u.hyphenated = some u := by
  have hsimple : ofSimple? u.hyphenated = none := by
    simp [ofSimple?, length_hyphenated]
  rw [parse?, hsimple, ofHyphenated?_hyphenated]
  rfl

end Uuid

/-! ## Identities -/

namespace Identity

variable {i : Identity} {p s : List Char}

theorem parts_of_no_colon (h : ':' ∉ p) : parts p = [p] := by
  induction p with
  | nil => rfl
  | cons c p ih =>
    have ⟨hc, hp⟩ := not_or.1 (mt List.mem_cons.2 h)
    rw [parts, ih hp]
    simp [Ne.symm hc]

/-- The part up to the first colon comes first. -/
theorem parts_append_colon (h : ':' ∉ p) : parts (p ++ ':' :: s) = p :: parts s := by
  have hne : ∀ t : List Char, parts t ≠ [] := by
    intro t
    cases t with
    | nil => simp [parts]
    | cons c t =>
      rw [parts]
      split
      · simp
      · split <;> simp
  induction p with
  | nil =>
    rw [List.nil_append, parts]
    cases hs : parts s with
    | nil => exact absurd hs (hne s)
    | cons q qs => simp
  | cons c p ih =>
    have ⟨hc, hp⟩ := not_or.1 (mt List.mem_cons.2 h)
    rw [List.cons_append, parts, ih hp]
    simp [Ne.symm hc]

theorem ofTag?_tag (k : IdentityKind) : IdentityKind.ofTag? k.tag = some k := by
  cases k <;> rfl

theorem no_colon_tag (k : IdentityKind) : ':' ∉ k.tag.toList := by
  cases k <;> decide

theorem no_colon_simple (u : Uuid) : ':' ∉ u.simple := by
  intro h
  obtain ⟨d, hd, hc⟩ := Radix.exists_digitChar_of_mem_writePadded (by decide) h
  exact (Radix.digitChar_ne (by omega)).2 hc.symm

theorem no_colon_write (n : Nat) : ':' ∉ Radix.write 32 n := by
  intro h
  obtain ⟨d, hd, hc⟩ := Radix.exists_digitChar_of_mem_write (by decide) h
  exact (Radix.digitChar_ne (by omega)).2 hc.symm

theorem ofParts_tag (k : IdentityKind) (u : Uuid) :
    ofParts k.tag.toList u.simple = .ok ⟨k, u, none⟩ := by
  rw [ofParts, String.ofList_toList, ofTag?_tag, Uuid.parse?_simple]

/-- **The text of an identity is read as the identity.** -/
theorem parse_text : parse i.text = .ok i := by
  obtain ⟨kind, uuid, run⟩ := i
  cases run with
  | none =>
    have hparts : parts (text ⟨kind, uuid, none⟩) = [kind.tag.toList, uuid.simple] := by
      rw [text, List.append_nil, parts_append_colon (no_colon_tag kind),
        parts_of_no_colon (no_colon_simple uuid)]
    simp only [parse, hparts, ofParts_tag]
  | some n =>
    have hparts : parts (text ⟨kind, uuid, some n⟩) =
        [kind.tag.toList, uuid.simple, Radix.write 32 n.toNat] := by
      rw [text, List.append_assoc, List.cons_append, parts_append_colon (no_colon_tag kind),
        parts_append_colon (no_colon_simple uuid), parts_of_no_colon (no_colon_write _)]
    have hread : Radix.read 32 0x10000000000000000 (Radix.write 32 n.toNat) = .ok n.toNat :=
      Radix.read_write (by decide) (by decide) n.toNat_lt
    simp only [parse, hparts, ofParts_tag, hread]
    simp

end Identity

/-! ## Sets of endpoints -/

namespace EndpointSet

/-- An endpoint beyond all others goes to the end. -/
theorem place_of_gt {a : Endpoint} {l : List Endpoint}
    (h : ∀ b ∈ l, Endpoint.order b a = .lt) : place a l = l ++ [a] := by
  induction l with
  | nil => rfl
  | cons b l ih =>
    have hgt : Endpoint.order a b = .gt :=
      Std.OrientedCmp.gt_of_lt (h b List.mem_cons_self)
    rw [place, hgt, ih fun c hc => h c (List.mem_cons_of_mem _ hc)]
    rfl

theorem toList_foldl_insert {s : EndpointSet} {l : List Endpoint}
    (h : (s.toList ++ l).Pairwise fun a b => Endpoint.order a b = .lt) :
    (l.foldl insert s).toList = s.toList ++ l := by
  induction l generalizing s with
  | nil => simp
  | cons a l ih =>
    have hplace : (s.insert a).toList = s.toList ++ [a] :=
      place_of_gt fun b hb => (List.pairwise_append.1 h).2.2 b hb a List.mem_cons_self
    rw [List.foldl_cons, ih (by rw [hplace]; simpa using h), hplace]
    simp

theorem ofList_toList (s : EndpointSet) : ofList s.toList = s := by
  have h : (ofList s.toList).toList = s.toList := toList_foldl_insert s.ascending
  obtain ⟨l, hl⟩ := s
  generalize ofList l = t at h ⊢
  obtain ⟨l', hl'⟩ := t
  cases h
  rfl

end EndpointSet

end Overlay
