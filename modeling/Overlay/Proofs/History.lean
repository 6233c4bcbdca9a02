import Mathlib.Data.List.Induction

/-!
# Histories

A history is a list of what happened, the oldest first. What is so now is often so because something
happened and nothing has undone it since.
-/

namespace Overlay

/-- Something of a sort happened, and nothing that would undo it has happened since. The sort may
depend on what had happened before. -/
def Since {α : Type} (done : List α → α → Prop) (undone : α → Prop) (history : List α) : Prop :=
  ∃ pre x post, history = pre ++ x :: post ∧ done pre x ∧ ∀ y ∈ post, ¬undone y

variable {α : Type} {done : List α → α → Prop} {undone : α → Prop} {history pre post : List α}
  {x y : α}

/-- The last thing that happened is the one that is looked for, or it comes after that. -/
theorem concat_eq_split (h : history ++ [x] = pre ++ y :: post) :
    (pre = history ∧ y = x ∧ post = []) ∨ ∃ more, post = more ++ [x] ∧ history = pre ++ y :: more := by
  rcases List.eq_nil_or_concat post with rfl | ⟨more, z, rfl⟩
  · obtain ⟨hpre, hx⟩ := List.append_inj' h rfl
    exact .inl ⟨hpre.symm, (List.singleton_inj.1 hx).symm, rfl⟩
  · have h : history ++ [x] = (pre ++ y :: more) ++ [z] := by simpa using h
    obtain ⟨hhistory, hx⟩ := List.append_inj' h rfl
    obtain rfl := List.singleton_inj.1 hx
    exact .inr ⟨more, by simp, hhistory⟩

@[simp] theorem not_since_nil : ¬Since done undone [] := by
  rintro ⟨pre, x, post, h, -⟩
  simp at h

theorem since_concat :
    Since done undone (history ++ [x]) ↔
      done history x ∨ (¬undone x ∧ Since done undone history) := by
  constructor
  · rintro ⟨pre, y, post, h, hy, hpost⟩
    rcases concat_eq_split h with ⟨rfl, rfl, rfl⟩ | ⟨more, rfl, rfl⟩
    · exact .inl hy
    · exact .inr ⟨hpost x (by simp), pre, y, more, rfl, hy, fun z hz => hpost z (by simp [hz])⟩
  · rintro (hx | ⟨hx, pre, y, post, rfl, hy, hpost⟩)
    · exact ⟨history, x, [], rfl, hx, by simp⟩
    · refine ⟨pre, y, post ++ [x], by simp, hy, fun z hz => ?_⟩
      rcases List.mem_append.1 hz with hz | hz
      · exact hpost z hz
      · exact List.mem_singleton.1 hz ▸ hx

/-- Each thing that happens, with what had happened before it, some earlier things included, and what
has happened since. -/
def moments (past : List α) : List α → List (List α × α × List α)
  | [] => []
  | x :: rest => (past, x, rest) :: moments (past ++ [x]) rest

theorem moments_concat (past history : List α) (x : α) :
    moments past (history ++ [x]) =
      ((moments past history).map fun y => (y.1, y.2.1, y.2.2 ++ [x])) ++
        [(past ++ history, x, [])] := by
  induction history generalizing past with
  | nil => simp [moments]
  | cons y history ih => simp [moments, ih]

end Overlay
