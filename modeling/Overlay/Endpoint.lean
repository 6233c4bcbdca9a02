import Overlay.Text.Radix

/-!
# Endpoints

An address at which an agent can be reached: a kind of service, a host and a port. A set of them is
a list in strictly ascending order, by kind, then host (by code points, which is also the order of
the bytes), then port, so that equal sets are equal lists.
-/

namespace Overlay

/-- The kind of service at an endpoint. -/
inductive EndpointKind where
  | udp
  | http
  | ssh
deriving DecidableEq, Repr

namespace EndpointKind

def rank : EndpointKind → Nat
  | .udp => 0
  | .http => 1
  | .ssh => 2

/-- The name of a kind in the wire format. -/
def tag : EndpointKind → String
  | .udp => "UDP"
  | .http => "HTTP"
  | .ssh => "SSH"

/-- The name of a kind at the head of an address. -/
def scheme : EndpointKind → String
  | .udp => "udp"
  | .http => "http"
  | .ssh => "ssh"

def tags : List (String × EndpointKind) :=
  [("UDP", .udp), ("HTTP", .http), ("SSH", .ssh)]

end EndpointKind

/-- An address at which an agent can be reached. -/
structure Endpoint where
  kind : EndpointKind
  host : String
  port : UInt16
deriving DecidableEq, Repr

namespace Endpoint

instance : Inhabited Endpoint := ⟨.udp, "", 0⟩

/-- The order of endpoints: kind, host, port. -/
def order : Endpoint → Endpoint → Ordering :=
  compareLex (compareOn fun e => e.kind.rank)
    (compareLex (compareOn Endpoint.host) (compareOn fun e => e.port.toNat))

instance : Std.TransCmp order := by
  unfold order; infer_instance

def display (e : Endpoint) : String :=
  e.kind.scheme ++ "://" ++ e.host ++ ":" ++ Radix.decimal e.port.toNat

end Endpoint

/-- A finite set of endpoints, listed in strictly ascending order. -/
structure EndpointSet where
  toList : List Endpoint
  ascending : toList.Pairwise fun a b => Endpoint.order a b = .lt
deriving DecidableEq

namespace EndpointSet

def empty : EndpointSet :=
  ⟨[], .nil⟩

instance : Inhabited EndpointSet := ⟨empty⟩

/-- Puts an endpoint in its place in an ascending list, unless it is there. -/
def place (a : Endpoint) : List Endpoint → List Endpoint
  | [] => [a]
  | b :: rest =>
    match Endpoint.order a b with
    | .lt => a :: b :: rest
    | .eq => b :: rest
    | .gt => b :: place a rest

theorem mem_place {a x : Endpoint} {l : List Endpoint} (h : x ∈ place a l) : x = a ∨ x ∈ l := by
  induction l with
  | nil => simpa [place] using h
  | cons b rest ih =>
    simp only [place] at h
    split at h
    · simpa using h
    · exact .inr h
    · rcases List.mem_cons.1 h with rfl | h
      · simp
      · rcases ih h with h | h <;> simp [h]

theorem ascending_place {a : Endpoint} {l : List Endpoint}
    (h : l.Pairwise fun a b => Endpoint.order a b = .lt) :
    (place a l).Pairwise fun a b => Endpoint.order a b = .lt := by
  induction l with
  | nil => simp [place]
  | cons b rest ih =>
    have ⟨hb, hrest⟩ := List.pairwise_cons.1 h
    simp only [place]
    split
    next hab =>
      refine List.pairwise_cons.2 ⟨fun x hx => ?_, h⟩
      rcases List.mem_cons.1 hx with rfl | hx
      · exact hab
      · exact Std.TransCmp.lt_trans hab (hb x hx)
    next => exact h
    next hab =>
      refine List.pairwise_cons.2 ⟨fun x hx => ?_, ih hrest⟩
      rcases mem_place hx with rfl | hx
      · exact Std.OrientedCmp.lt_of_gt hab
      · exact hb x hx

def insert (s : EndpointSet) (a : Endpoint) : EndpointSet :=
  ⟨place a s.toList, ascending_place s.ascending⟩

def contains (s : EndpointSet) (a : Endpoint) : Bool :=
  s.toList.contains a

def ofList (l : List Endpoint) : EndpointSet :=
  l.foldl insert empty

def size (s : EndpointSet) : Nat :=
  s.toList.length

end EndpointSet

end Overlay
