import Mathlib.Data.List.Permutation
import Mathlib.Data.List.Sort
import Overlay.Proofs.Wire.Agreement

/-!
# Endpoints in any spelling

An endpoint may be written as an object with its keys in any order or as an array, and a set of
endpoints in any order and with repetitions. What is read does not depend on that, nor on whether it
is read off the text or from a tree that the text was read as: `Agrees` says both at once.
-/

namespace Overlay

/-! ## Sets from lists -/

theorem EndpointKind.rank_inj {a b : EndpointKind} (h : a.rank = b.rank) : a = b := by
  cases a <;> cases b <;> first | rfl | cases h

/-- Only an endpoint itself is neither before nor behind it. -/
theorem Endpoint.order_eq_eq_iff {a b : Endpoint} : Endpoint.order a b = .eq ↔ a = b := by
  obtain ⟨kind, host, port⟩ := a
  obtain ⟨kind', host', port'⟩ := b
  simp only [order, compareLex, compareOn, Ordering.then_eq_eq, Std.compare_eq_iff_eq,
    UInt16.toNat_inj, Endpoint.mk.injEq]
  exact and_congr_left' ⟨EndpointKind.rank_inj, congrArg _⟩

namespace EndpointSet

variable {a e : Endpoint} {l : List Endpoint} {s t : EndpointSet}

theorem mem_place_iff : e ∈ place a l ↔ e = a ∨ e ∈ l := by
  induction l with
  | nil => simp [place]
  | cons b l ih =>
    rw [place]
    split
    next => simp
    next heq =>
      rw [Endpoint.order_eq_eq_iff.1 heq]
      simp
    next =>
      rw [List.mem_cons, ih, List.mem_cons]
      exact or_left_comm

theorem mem_foldl_insert_iff : e ∈ (l.foldl insert s).toList ↔ e ∈ s.toList ∨ e ∈ l := by
  induction l generalizing s with
  | nil => simp
  | cons a l ih =>
    have hinsert : e ∈ (s.insert a).toList ↔ e = a ∨ e ∈ s.toList := mem_place_iff
    rw [List.foldl_cons, ih, hinsert, List.mem_cons, or_assoc]
    exact or_left_comm

theorem mem_ofList_iff : e ∈ (ofList l).toList ↔ e ∈ l := by
  rw [ofList, mem_foldl_insert_iff]
  simp [empty]

theorem eq_of_mem_iff (h : ∀ e, e ∈ s.toList ↔ e ∈ t.toList) : s = t := by
  have hirrefl : Std.Irrefl fun a b => Endpoint.order a b = .lt :=
    ⟨fun a h => by simp [Std.ReflCmp.compare_self] at h⟩
  have hantisymm : Std.Antisymm fun a b => Endpoint.order a b = .lt :=
    ⟨fun a b hab hba => by
      rw [Std.OrientedCmp.gt_of_lt hab] at hba
      cases hba⟩
  obtain ⟨l, hl⟩ := s
  obtain ⟨l', hl'⟩ := t
  have hlists : l = l' := List.Pairwise.eq_of_mem_iff hl hl' h
  subst hlists
  rfl

/-- **A set is that of any list of its members, whatever their order and their number.** -/
theorem ofList_eq (h : ∀ e, e ∈ l ↔ e ∈ s.toList) : ofList l = s :=
  eq_of_mem_iff fun e => mem_ofList_iff.trans (h e)

end EndpointSet

/-! ## Endpoints -/

open Wire

variable {room : Nat} {j : Json} {e : Endpoint}

/-- An endpoint as an object with its keys in any order, or as an array of its parts. -/
inductive Endpoint.SpelledAs (e : Endpoint) : Json → Prop
  | object {ms : List (String × Json)} :
      ms.Perm [("kind", .string e.kind.tag), ("host", .string e.host),
        ("port", .nat e.port.toNat)] → SpelledAs e (.object ms)
  | array : SpelledAs e (.array [.string e.kind.tag, .string e.host, .nat e.port.toNat])

theorem Endpoint.spelledAs_toJson (e : Endpoint) : e.SpelledAs e.toJson :=
  .object (.refl _)

/-- The six orders of three things. -/
theorem orders_of_three {α : Type} {a b c : α} {l : List α} (h : l.Perm [a, b, c]) :
    l = [a, b, c] ∨ l = [b, a, c] ∨ l = [c, b, a] ∨ l = [b, c, a] ∨ l = [c, a, b] ∨
      l = [a, c, b] := by
  simpa [List.permutations] using List.mem_permutations.2 h

namespace Endpoint

theorem agrees_kind (k : EndpointKind) :
    Agrees (readTag EndpointKind.tags) (tagIn EndpointKind.tags) room (.string k.tag) k :=
  agrees_tag (by cases k <;> rfl)

theorem agrees_port (p : UInt16) :
    Agrees (readWord 0x10000 "u16") (wordIn 0x10000 "u16") room (.nat p.toNat) p.toNat :=
  agrees_word p.toNat_lt (by decide)

theorem finish_eq {R : Type → Type} [Functor R] {kind : R EndpointKind} {host : R String}
    {port : R Nat} {k : EndpointKind} {h : String} {p : UInt16} :
    (schema kind host port).finish ⟨some k, some h, some (UInt16.ofNat p.toNat)⟩ =
      .ok ⟨k, h, p⟩ := by
  rw [UInt16.ofNat_toNat]
  rfl

/-- The members of an endpoint that both ways to read take one after the other. -/
abbrev AgreesEndpoint (room : Nat) : Draft → List (String × Json) → Draft → Prop :=
  Schema.AgreesAll
    (schema (readTag EndpointKind.tags) (readString "a string") (readWord 0x10000 "u16"))
    (schema (tagIn EndpointKind.tags) (stringOf "a string") (wordIn 0x10000 "u16")) room

/-- However an endpoint is spelled, both ways to read give it. -/
theorem agrees (h : e.SpelledAs j) : Agrees Endpoint.read Endpoint.ofJson (room + 1) j e := by
  obtain ⟨kind, host, port⟩ := e
  cases h with
  | array =>
    exact Schema.agrees_read_array (.cons ((agrees_kind kind).map _) <|
      .cons ((agrees_string host).map _) <| .cons ((agrees_port port).map _) (.nil _)) rfl
      finish_eq finish_eq
  | @object ms hms =>
    -- Each of the three keys, wherever it stands, sets its part of the draft and no other.
    have hkind : ∀ {d d' : Draft} {ms}, d.kind = none →
        AgreesEndpoint room { d with kind := some kind } ms d' →
        AgreesEndpoint room d (("kind", .string kind.tag) :: ms) d' := fun hd h =>
      .cons rfl rfl (by simp [hd]) (by simp [hd]) ((agrees_kind kind).map _) h
    have hhost : ∀ {d d' : Draft} {ms}, d.host = none →
        AgreesEndpoint room { d with host := some host } ms d' →
        AgreesEndpoint room d (("host", .string host) :: ms) d' := fun hd h =>
      .cons rfl rfl (by simp [hd]) (by simp [hd]) ((agrees_string host).map _) h
    have hport : ∀ {d d' : Draft} {ms}, d.port = none →
        AgreesEndpoint room { d with port := some (UInt16.ofNat port.toNat) } ms d' →
        AgreesEndpoint room d (("port", .nat port.toNat) :: ms) d' := fun hd h =>
      .cons rfl rfl (by simp [hd]) (by simp [hd]) ((agrees_port port).map _) h
    have hmembers : AgreesEndpoint room ⟨none, none, none⟩ ms
        ⟨some kind, some host, some (UInt16.ofNat port.toNat)⟩ := by
      rcases orders_of_three hms with rfl | rfl | rfl | rfl | rfl | rfl
      · exact hkind rfl (hhost rfl (hport rfl (.nil _)))
      · exact hhost rfl (hkind rfl (hport rfl (.nil _)))
      · exact hport rfl (hhost rfl (hkind rfl (.nil _)))
      · exact hhost rfl (hport rfl (hkind rfl (.nil _)))
      · exact hport rfl (hkind rfl (hhost rfl (.nil _)))
      · exact hkind rfl (hport rfl (hhost rfl (.nil _)))
    exact Schema.agrees_read hmembers rfl finish_eq finish_eq

end Endpoint

/-- A list of spelled endpoints whose set is the given one. -/
def EndpointSet.SpelledAs (s : EndpointSet) (items : List Json) : Prop :=
  ∃ l, List.Forall₂ Endpoint.SpelledAs l items ∧ ∀ e, e ∈ l ↔ e ∈ s.toList

/-- **However the endpoints of a set are listed, both ways to read give the set.** -/
theorem EndpointSet.agrees {s : EndpointSet} {items : List Json} (h : s.SpelledAs items) :
    Agrees EndpointSet.read EndpointSet.ofJson (room + 2) (.array items) s := by
  obtain ⟨l, hl, hs⟩ := h
  have hitems : List.Forall₂ (Agrees Endpoint.read Endpoint.ofJson (room + 1)) items l :=
    (hl.imp fun _ _ h => Endpoint.agrees h).flip
  have hset := (agrees_list hitems).map EndpointSet.ofList
  rwa [ofList_eq hs] at hset

theorem EndpointSet.spelledAs_toJson (s : EndpointSet) :
    s.SpelledAs (s.toList.map Endpoint.toJson) := by
  refine ⟨s.toList, ?_, fun _ => Iff.rfl⟩
  rw [List.forall₂_map_right_iff]
  exact List.forall₂_same.2 fun e _ => e.spelledAs_toJson

end Overlay
