import Overlay.Uuid

/-!
# Identities

What names a cloud or an agent: a kind, an identifier and, where one program runs several times, the
number of the run. Identities are ordered by these three in turn, clouds before agents and a missing
run number before every given one.
-/

namespace Overlay

/-- What an identity names. -/
inductive IdentityKind where
  | cloud
  | agent
deriving DecidableEq, Repr

namespace IdentityKind

def rank : IdentityKind → Nat
  | .cloud => 0
  | .agent => 1

instance : Ord IdentityKind := ⟨fun a b => compare a.rank b.rank⟩

/-- The three letters that stand for a kind (`IdentityKind::tag`). -/
def tag : IdentityKind → String
  | .cloud => "CLD"
  | .agent => "AGT"

def ofTag? (s : String) : Option IdentityKind :=
  if s = "CLD" then some .cloud else if s = "AGT" then some .agent else none

def name : IdentityKind → String
  | .cloud => "Cloud"
  | .agent => "Agent"

end IdentityKind

/-- The name of a cloud or an agent. -/
structure Identity where
  kind : IdentityKind
  uuid : Uuid
  /-- The number of the run, if one is given. -/
  run : Option UInt64
deriving DecidableEq, Repr

namespace Identity

instance : Inhabited Identity := ⟨.cloud, default, none⟩

def cloud (uuid : Uuid) : Identity :=
  ⟨.cloud, uuid, none⟩

def agent (uuid : Uuid) : Identity :=
  ⟨.agent, uuid, none⟩

/-- A missing number comes before every given one. -/
def compareRuns : Option UInt64 → Option UInt64 → Ordering
  | none, none => .eq
  | none, some _ => .lt
  | some _, none => .gt
  | some a, some b => compare a b

instance : Ord Identity :=
  ⟨fun a b => (compare a.kind b.kind).then ((compare a.uuid b.uuid).then (compareRuns a.run b.run))⟩

/-- The place of an item in a list sorted without repetitions. -/
def insertSorted (a : Identity) : List Identity → List Identity
  | [] => [a]
  | b :: rest =>
    match compare a b with
    | .lt => a :: b :: rest
    | .eq => b :: rest
    | .gt => b :: insertSorted a rest

/-- The identities in ascending order, each once. -/
def sorted (items : List Identity) : List Identity :=
  items.foldl (fun acc a => insertSorted a acc) []

end Identity

end Overlay
