import Overlay.Wire.Scalar

/-!
# Records

A record is an object whose known keys may come in any order, each at most once, and whose unknown
keys are skipped, or an array of its fields in the order of their declaration. While a record is
being read its fields are collected in a draft; a key that repeats is refused before its value is
looked at, and the first missing field once all members are read.
-/

namespace Overlay.Wire

open Reader

/-- A field of a record: how it is named and read, and how the draft takes it. -/
structure Field (R : Type → Type) (D : Type) where
  name : String
  /-- Whether an array of fields may end before this one only as a refusal. -/
  required : Bool
  isGiven : D → Bool
  value : R (D → D)

/-- A record: its fields in order and how a draft becomes a value. -/
structure Schema (R : Type → Type) (D α : Type) where
  title : String
  fields : List (Field R D)
  blank : D
  finish : D → Except Fault α

/-- A field that must be there. -/
def need {α : Type} (name : String) : Option α → Except Fault α
  | some a => .ok a
  | none => .error (.misfit (.missingField name))

def elementCount (n : Nat) : String :=
  Radix.decimal n ++ (if n = 1 then " element" else " elements")

namespace Schema

variable {R : Type → Type} {D α : Type}

def field? (s : Schema R D α) (key : String) : Option (Field R D) :=
  s.fields.find? fun f => f.name = key

/-- The refusal of an array that ends before the field at place `n`. -/
def tooShort (s : Schema R D α) (n : Nat) : Fault :=
  .misfit (.wrongLength n (s.title ++ " with " ++ elementCount s.fields.length))

/-! ## Off the text -/

/-- Reads one member, its key being gone. -/
def readMember (s : Schema Streamed D α) (room : Nat) (d : D) (key : String) : Reader D :=
  match s.field? key with
  | none => do
    colonMark
    skipValue
    return d
  | some f =>
    if f.isGiven d then fail (.misfit (.duplicateField f.name))
    else do
      colonMark
      return (← f.value room) d

/-- Reads a record from an object whose opening brace is gone. -/
def readMembers (s : Schema Streamed D α) : Streamed α := fun room => do
  let d ← foldMembers (s.readMember room) true s.blank
  let a ← lift (s.finish d)
  endObject
  return a

/-- Reads the fields from an array, the first of them at place `n`. -/
def readFields (s : Schema Streamed D α) (room : Nat) :
    List (Field Streamed D) → Nat → Bool → D → Reader D
  | [], _, _, d => return d
  | f :: fs, n, first, d => do
    if ← nextElement first then
      let set ← f.value room
      readFields s room fs (n + 1) false (set d)
    else if f.required then fail (s.tooShort n)
    else readFields s room fs (n + 1) first d

def readElements (s : Schema Streamed D α) : Streamed α := fun room => do
  let d ← s.readFields room s.fields 0 true s.blank
  let a ← lift (s.finish d)
  endArray
  return a

def read (s : Schema Streamed D α) : Streamed α := fun room => do
  let b ← look .value
  if b = openBracket then opened room s.readElements
  else if b = openBrace then opened room s.readMembers
  else unexpected b s.title

def readObject (s : Schema Streamed D α) : Streamed α := fun room => do
  let b ← look .value
  if b = openBracket then opened room fun _ => fail (wrongType .sequence s.title)
  else if b = openBrace then opened room s.readMembers
  else unexpected b s.title

/-! ## From a tree -/

def memberIn (s : Schema Buffered D α) (d : D) (member : String × Json) : Except Fault D :=
  match s.field? member.1 with
  | none => .ok d
  | some f =>
    if f.isGiven d then .error (.misfit (.duplicateField f.name))
    else do return (← f.value member.2) d

def membersIn (s : Schema Buffered D α) (members : List (String × Json)) : Except Fault α := do
  s.finish (← members.foldlM s.memberIn s.blank)

/-- Takes the fields from the items of an array, the first of them at place `n`. -/
def fieldsIn (s : Schema Buffered D α) :
    List (Field Buffered D) → Nat → List Json → D → Except Fault D
  | [], _, _, d => .ok d
  | f :: fs, n, [], d => if f.required then .error (s.tooShort n) else fieldsIn s fs (n + 1) [] d
  | f :: fs, n, j :: js, d => do
    let set ← f.value j
    fieldsIn s fs (n + 1) js (set d)

def elementsOf (s : Schema Buffered D α) (items : List Json) : Except Fault α := do
  let d ← s.fieldsIn s.fields 0 items s.blank
  let a ← s.finish d
  if s.fields.length < items.length then
    throw (.misfit (.wrongLength items.length (elementCount s.fields.length ++ " in sequence")))
  return a

def ofJson (s : Schema Buffered D α) : Buffered α
  | .object members => s.membersIn members
  | .array items => s.elementsOf items
  | j => .error (wrongType (foundIn j) s.title)

def ofObject (s : Schema Buffered D α) : Buffered α
  | .object members => s.membersIn members
  | j => .error (wrongType (foundIn j) s.title)

end Schema

end Overlay.Wire
