import Overlay.Number.Binary64

/-!
# JSON trees

A JSON text as a tree. An integer that a signed or an unsigned word of 64 bits holds is kept as an
integer, every other number as a finite binary64 number. Objects keep their members in the order of
the text, repeated keys included.

A tree is *normal* if the keys of each of its objects are strictly ascending; `Body` is the type of
normal trees, and `Body.ofJson` normalises: of several members with one key the last one stays.
-/

namespace Overlay

/-- A JSON number. -/
inductive Number where
  /-- An integer from `-2 ^ 63` up to, not including, `2 ^ 64`. -/
  | whole (value : Int) (range : -0x8000000000000000 ≤ value ∧ value < 0x10000000000000000)
  | real (value : Binary64)
deriving DecidableEq, Repr

namespace Number

def ofUInt64 (n : UInt64) : Number :=
  .whole n.toNat ⟨by omega, by have := n.toNat_lt; omega⟩

/-- The number of an integer, which becomes zero if it is out of range. -/
def ofInt (n : Int) : Number :=
  if h : -0x8000000000000000 ≤ n ∧ n < 0x10000000000000000 then .whole n h
  else .whole 0 (by decide)

/-- Equality of values: integers and binary numbers differ, the two zeros do not. -/
def equal : Number → Number → Bool
  | .whole a _, .whole b _ => a = b
  | .real a, .real b => a.equal b
  | _, _ => false

def isWhole : Number → Bool
  | .whole _ _ => true
  | .real _ => false

end Number

/-- A JSON tree. -/
inductive Json where
  | null
  | bool (value : Bool)
  | number (value : Number)
  | string (value : String)
  | array (items : List Json)
  | object (members : List (String × Json))
deriving Repr, Inhabited

namespace Json

/-- The tree of a natural number below `2 ^ 64`. -/
def nat (n : Nat) : Json :=
  .number (.ofInt n)

mutual

def equal : Json → Json → Bool
  | .null, .null => true
  | .bool a, .bool b => a == b
  | .number a, .number b => a.equal b
  | .string a, .string b => a == b
  | .array a, .array b => equalItems a b
  | .object a, .object b => equalMembers a b
  | _, _ => false

def equalItems : List Json → List Json → Bool
  | [], [] => true
  | a :: as, b :: bs => equal a b && equalItems as bs
  | _, _ => false

def equalMembers : List (String × Json) → List (String × Json) → Bool
  | [], [] => true
  | (k, a) :: as, (l, b) :: bs => k == l && equal a b && equalMembers as bs
  | _, _ => false

end

mutual

/-- The number of arrays and objects on the longest way down. -/
def depth : Json → Nat
  | .array items => depthItems items + 1
  | .object members => depthMembers members + 1
  | _ => 0

def depthItems : List Json → Nat
  | [] => 0
  | a :: as => max (depth a) (depthItems as)

def depthMembers : List (String × Json) → Nat
  | [] => 0
  | (_, a) :: as => max (depth a) (depthMembers as)

end

mutual

/-- Whether all numbers in the tree are integers. -/
def isWhole : Json → Bool
  | .number n => n.isWhole
  | .array items => isWholeItems items
  | .object members => isWholeMembers members
  | _ => true

def isWholeItems : List Json → Bool
  | [] => true
  | a :: as => isWhole a && isWholeItems as

def isWholeMembers : List (String × Json) → Bool
  | [] => true
  | (_, a) :: as => isWhole a && isWholeMembers as

end

end Json

end Overlay
