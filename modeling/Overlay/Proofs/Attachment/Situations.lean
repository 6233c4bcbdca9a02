import Overlay.Proofs.Attachment.Agreement

/-!
# Leaves that are dropped, and messages on their way

A situation is a scene together with what else may be under way. A leave waits while its departure
is announced, and whoever made it may drop it there; it gets on no more then. A message goes to the
listeners that were subscribed when it was dispatched, or when the worker took it, one after the
other, and each may take its time: between two of them anything may happen (`Delivery`).

What happens comes in any order. As far as joins and leaves are concerned it is a run of turns
(`Situation.Course.run`), so whatever is proved of runs holds here.
-/

namespace Overlay

/-- A message on its way among the listeners of an engine, with those that have still to be
called. -/
structure Delivery where
  engine : EngineId
  message : Message
  due : List Hearer

/-- A scene, the leaves that were dropped, and the deliveries that were ever begun. -/
structure Situation where
  scene : Scene
  dropped : List Nat
  deliveries : List Delivery

inductive Happening where
  | turn (turn : Turn)
  /-- A leave is dropped. -/
  | drop (call : Nat)
  /-- An engine dispatches a message. -/
  | dispatch (engine : EngineId) (message : Message)
  /-- The worker of an engine takes a message. -/
  | take (engine : EngineId)
  /-- The next listener of a delivery is called. -/
  | call (delivery : Nat)

namespace Happening

/-- What happens as far as joins and leaves are concerned. -/
def turn? : Happening → Option Turn
  | turn t => some t
  | drop _ => none
  | dispatch _ _ | take _ | call _ => some .other

end Happening

namespace Situation

def quiet (f : Fabric) : Situation :=
  ⟨⟨f, []⟩, [], []⟩

/-- One thing happens. A leave waits for nothing but the announcement of its departure. Who is
called may send an answer, and what comes of that need not happen at once. -/
inductive Step : Situation → Happening → Situation → Prop
  | turn {p : Situation} {t : Turn} {s : Scene} (hstep : p.scene.Step t s)
      (hstill : ∀ k ∈ p.dropped, s.call k = p.scene.call k) :
      Step p (.turn t) { p with scene := s }
  | drop {p : Situation} {k : Nat} {a : AgentId} {e : EngineId}
      (hcall : p.scene.call k = .departing a e) :
      Step p (.drop k) { p with dropped := k :: p.dropped }
  | dispatch {p : Situation} {c : EngineId} {m : Message} {fanout : Fanout Hearer}
      {audience : List Hearer}
      (hdispatch : (p.scene.fabric.engine c).fanout.dispatch m = (fanout, audience)) :
      Step p (.dispatch c m) { p with
        scene := ⟨p.scene.fabric.setFanout c fanout, p.scene.calls⟩
        deliveries := p.deliveries ++ [⟨c, m, audience⟩] }
  | take {p : Situation} {c : EngineId} {m : Message} {fanout : Fanout Hearer}
      {audience : List Hearer}
      (htake : (p.scene.fabric.engine c).fanout.take? = some (m, audience, fanout)) :
      Step p (.take c) { p with
        scene := ⟨p.scene.fabric.setFanout c fanout, p.scene.calls⟩
        deliveries := p.deliveries ++ [⟨c, m, audience⟩] }
  | call {p : Situation} {i : Nat} {c : EngineId} {m : Message} {l : Hearer} {rest : List Hearer}
      {receive : Reception} (hdue : p.deliveries[i]? = some ⟨c, m, l :: rest⟩)
      (hreceive : Fabric.Keeps Fabric.Aloof (fun _ _ => True) receive) :
      Step p (.call i) { p with
        scene := ⟨p.scene.fabric.callHearer receive m l, p.scene.calls⟩
        deliveries := p.deliveries.set i ⟨c, m, rest⟩ }

/-- One thing happens after the other, the latest first. -/
inductive Course (p : Situation) : List Happening → Situation → Prop
  | nil : Course p [] p
  | cons {q r : Situation} {x : Happening} {xs : List Happening} (hcourse : Course p xs q)
      (hstep : Step q x r) : Course p (x :: xs) r

def turns (xs : List Happening) : List Turn :=
  xs.filterMap Happening.turn?

variable {p q r : Situation} {x : Happening} {xs ys : List Happening} {k : Nat} {s s' : Scene}
  {t : Turn} {ts : List Turn}

theorem mem_turns (ht : t ≠ .other) : t ∈ turns xs ↔ .turn t ∈ xs := by
  simp only [turns, List.mem_filterMap]
  constructor
  · rintro ⟨x, hx, hxt⟩
    cases x with
    | turn t' => exact Option.some.inj hxt ▸ hx
    | drop k => contradiction
    | _ => exact absurd (Option.some.inj hxt).symm ht
  · exact fun hx => ⟨_, hx, rfl⟩

/-! ## Courses are runs -/

/-- A step is a turn, or the scene stays the same. -/
theorem Step.run (hstep : Step p x q) : p.scene.Run x.turn?.toList q.scene := by
  cases hstep with
  | turn hstep => exact .cons .nil hstep
  | drop => exact .nil
  | @dispatch c m fanout audience hdispatch =>
    have haloof := Fabric.Aloof.closed.queue (f := p.scene.fabric) (m := m) c trivial
    rw [hdispatch] at haloof
    exact .cons .nil (.other haloof)
  | take htake => exact .cons .nil (.other (.take htake))
  | call _ hreceive =>
    exact .cons .nil (.other (Fabric.Aloof.closed.callHearer hreceive trivial _))

theorem Course.run (hcourse : Course p xs q) : p.scene.Run (turns xs) q.scene := by
  induction hcourse with
  | nil => exact .nil
  | @cons q r x xs hcourse hstep ih =>
    have hturns : turns (x :: xs) = x.turn?.toList ++ turns xs := by
      rw [turns, List.filterMap_cons]
      cases x.turn? <;> rfl
    rw [hturns]
    exact ih.append hstep.run

/-- A run is a course in which nothing is dropped. -/
theorem course_of_run (hrun : Scene.Run s ts s') (ds : List Delivery) :
    Course ⟨s, [], ds⟩ (ts.map .turn) ⟨s', [], ds⟩ := by
  induction hrun with
  | nil => exact .nil
  | cons _ hstep ih => exact ih.cons (.turn hstep (by simp))

theorem Course.append (h : Course p xs q) (h' : Course q ys r) : Course p (ys ++ xs) r := by
  induction h' with
  | nil => exact h
  | cons _ hstep ih => exact ih.cons hstep

theorem Step.still (hstep : Step p x q) (hk : k ∈ p.dropped) :
    k ∈ q.dropped ∧ q.scene.call k = p.scene.call k := by
  cases hstep with
  | turn hstep hstill => exact ⟨hk, hstill k hk⟩
  | drop => exact ⟨List.mem_cons_of_mem _ hk, rfl⟩
  | _ => exact ⟨hk, rfl⟩

/-- Dropped leaves stay where they are. -/
theorem Course.still (hcourse : Course p xs q) (hk : k ∈ p.dropped) :
    k ∈ q.dropped ∧ q.scene.call k = p.scene.call k := by
  induction hcourse with
  | nil => exact ⟨hk, rfl⟩
  | cons _ hstep ih =>
    obtain ⟨hk, hcall⟩ := hstep.still ih.1
    exact ⟨hk, hcall.trans ih.2⟩

end Situation

end Overlay
