import Overlay.Fabric.Basic

/-!
# Tasks that become ready

A task that becomes ready comes after all that are ready, and keeps its place if it is one of them.
To wake tasks and to release threads does no more than this.
-/

namespace Overlay

/-- The tasks that are ready when more of them have become so. -/
def enqueued (ready ts : List Task) : List Task :=
  ts.foldl (fun ready t => if ready.contains t then ready else ready ++ [t]) ready

variable {ready ts : List Task} {k : Task}

theorem mem_enqueued : k ∈ enqueued ready ts ↔ k ∈ ready ∨ k ∈ ts := by
  unfold enqueued
  induction ts generalizing ready with
  | nil => simp
  | cons t ts ih =>
    rw [List.foldl_cons, ih]
    by_cases ht : t ∈ ready
    · rw [if_pos (List.contains_iff_mem.2 ht)]
      grind
    · rw [if_neg fun h => ht (List.contains_iff_mem.1 h)]
      simp [or_assoc]

theorem nodup_enqueued (h : ready.Nodup) : (enqueued ready ts).Nodup := by
  unfold enqueued
  induction ts generalizing ready with
  | nil => exact h
  | cons t ts ih =>
    rw [List.foldl_cons]
    refine ih ?_
    split
    · exact h
    · next ht =>
      refine List.nodup_append.2 ⟨h, by simp, fun x hx y hy hxy => ?_⟩
      obtain rfl := List.mem_singleton.1 hy
      exact ht (List.contains_iff_mem.2 (hxy ▸ hx))

theorem prefix_enqueued : ready <+: enqueued ready ts := by
  unfold enqueued
  induction ts generalizing ready with
  | nil => exact List.prefix_rfl
  | cons t ts ih =>
    rw [List.foldl_cons]
    split
    · exact ih
    · exact (List.prefix_append _ _).trans ih

/-- What becomes ready comes after the task whose turn it is. -/
theorem enqueued_cons (h : k ∉ ts) : enqueued (k :: ready) ts = k :: enqueued ready ts := by
  unfold enqueued
  induction ts generalizing ready with
  | nil => rfl
  | cons t ts ih =>
    obtain ⟨hkt, hts⟩ := not_or.1 (mt List.mem_cons.2 h)
    have hsame : (k :: ready).contains t = ready.contains t := by
      simp [Ne.symm hkt]
    rw [List.foldl_cons, List.foldl_cons, hsame]
    split
    · exact ih hts
    · exact ih hts

/-- One kind of tasks does not notice another. -/
theorem filter_enqueued (h : k ∉ ts) :
    (enqueued ready ts).filter (· ≠ k) = enqueued (ready.filter (· ≠ k)) ts := by
  unfold enqueued
  induction ts generalizing ready with
  | nil => rfl
  | cons t ts ih =>
    obtain ⟨hkt, hts⟩ := not_or.1 (mt List.mem_cons.2 h)
    have hsame : (ready.filter (· ≠ k)).contains t = ready.contains t := by
      rw [Bool.eq_iff_iff]
      simp [Ne.symm hkt]
    rw [List.foldl_cons, List.foldl_cons, hsame, ih hts]
    split
    · rfl
    · simp [Ne.symm hkt]

namespace Fabric

variable {f : Fabric}

theorem wake_eq (k : Task) : f.wake k = { f with ready := enqueued f.ready [k] } := by
  simp only [wake, enqueued, List.foldl_cons, List.foldl_nil]
  split <;> rfl

theorem releaseThreads_eq (threads : List ThreadId) : f.releaseThreads threads =
    { f with
      confirmed := threads.reverse ++ f.confirmed
      ready := enqueued f.ready (threads.map .thread) } := by
  unfold releaseThreads
  induction threads generalizing f with
  | nil => rfl
  | cons t threads ih =>
    rw [List.foldl_cons, ih, wake_eq]
    simp [enqueued]

theorem foldl_wake (due : List (Nat × Task)) (f : Fabric) :
    due.foldl (fun f d => f.wake d.2) f =
      { f with ready := enqueued f.ready (due.map Prod.snd) } := by
  induction due generalizing f with
  | nil => rfl
  | cons d due ih =>
    rw [List.foldl_cons, ih, wake_eq]
    rfl

end Fabric

end Overlay
