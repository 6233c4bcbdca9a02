import Overlay.Wire.Value

/-!
# Scalars, tags and sequences of a record

What a record asks for can come from two places: from the text itself, or from a tree that was read
before it was known what it stands for. The two ways accept the same values and word their refusals
alike, but not everywhere: from the text a fault of form may come first.
-/

namespace Overlay.Wire

/-- Reads off the text, with room for a number of open arrays and objects. -/
def Streamed (α : Type) : Type :=
  Nat → Reader α

/-- Reads from a tree. -/
def Buffered (α : Type) : Type :=
  Json → Except Fault α

instance : Functor Streamed where
  map f read := fun room => f <$> read room

instance : Functor Buffered where
  map f read := fun j => (read j).map f

def wrongType (found : Found) (expected : String) : Fault :=
  .misfit (.wrongType found expected)

def foundIn : Json → Found
  | .null => .null
  | .bool b => .bool b
  | .number n => .number n
  | .string s => .string s
  | .array _ => .sequence
  | .object _ => .map

/-- Goes on with a checked value. -/
def Streamed.check {α β : Type} (read : Streamed α) (accept : α → Except Fault β) : Streamed β :=
  fun room => do Reader.lift (accept (← read room))

def Buffered.check {α β : Type} (read : Buffered α) (accept : α → Except Fault β) : Buffered β :=
  fun j => read j >>= accept

namespace Reader

variable {α : Type}

/-- Refuses the value that starts with the given byte. A scalar is read first. -/
def unexpected (b : UInt8) (expected : String) : Reader α := do
  match ← scalar? b with
  | some j => fail (wrongType (foundIn j) expected)
  | none => fail (wrongType (if b = openBracket then .sequence else .map) expected)

/-- Takes off an opening bracket, if there is room for what it opens. -/
def opened (room : Nat) (inside : Streamed α) : Reader α :=
  match room with
  | 0 => fail (.malformed .tooDeep)
  | room + 1 => do
    skip
    inside room

end Reader

open Reader

/-! ## Scalars -/

def readString (expected : String) : Streamed String := fun _ => do
  let b ← look .value
  if b = quote then
    skip
    stringBody
  else unexpected b expected

def stringOf (expected : String) : Buffered String
  | .string s => .ok s
  | j => .error (wrongType (foundIn j) expected)

def readBool : Streamed Bool := fun _ => do
  let b ← look .value
  match ← scalar? b with
  | some (.bool v) => return v
  | some j => fail (wrongType (foundIn j) "a boolean")
  | none => fail (wrongType (if b = openBracket then .sequence else .map) "a boolean")

def boolOf : Buffered Bool
  | .bool v => .ok v
  | j => .error (wrongType (foundIn j) "a boolean")

/-- A natural number below a limit. -/
def wordOf (limit : Nat) (expected : String) : Number → Except Fault Nat
  | .whole n h =>
    if 0 ≤ n ∧ n < limit then .ok n.toNat
    else .error (.misfit (.wrongValue (.number (.whole n h)) expected))
  | .real x => .error (wrongType (.number (.real x)) expected)

def readWord (limit : Nat) (expected : String) : Streamed Nat := fun _ => do
  let b ← look .value
  match ← scalar? b with
  | some (.number n) => lift (wordOf limit expected n)
  | some j => fail (wrongType (foundIn j) expected)
  | none => fail (wrongType (if b = openBracket then .sequence else .map) expected)

def wordIn (limit : Nat) (expected : String) : Buffered Nat
  | .number n => wordOf limit expected n
  | j => .error (wrongType (foundIn j) expected)

def identityOf (s : String) : Except Fault Identity :=
  match Identity.parse s.toList with
  | .ok i => .ok i
  | .error defect => .error (.misfit (.badIdentity defect))

def readIdentity : Streamed Identity :=
  (readString "a string").check identityOf

def identityIn : Buffered Identity :=
  (stringOf "a string").check identityOf

def uuidOf (s : String) : Except Fault Uuid :=
  match Uuid.parse? s.toList with
  | some u => .ok u
  | none => .error (.misfit .badUuid)

def readUuid : Streamed Uuid :=
  (readString "a formatted UUID string").check uuidOf

/-! ## Tags -/

/-- The value that goes by a name. -/
def named {α : Type} (names : List (String × α)) (name : String) : Except Fault α :=
  match names.find? fun n => n.1 = name with
  | some (_, a) => .ok a
  | none => .error (.misfit (.unknownVariant name (names.map Prod.fst)))

def readName {α : Type} (names : List (String × α)) : Streamed α :=
  (readString "variant identifier").check (named names)

def nameIn {α : Type} (names : List (String × α)) : Buffered α :=
  (stringOf "variant identifier").check (named names)

/-- One of several named values, off the text: its name, or an object with the name as its only key
and null as its value. -/
def readTag {α : Type} (names : List (String × α)) : Streamed α := fun room => do
  let b ← look .value
  if b = quote then readName names room
  else if b = openBrace then
    opened room fun room => do
      let a ← readName names room
      colonMark
      let b ← look .value
      match ← scalar? b with
      | some .null => pure ()
      | some j => fail (wrongType (foundIn j) "unit")
      | none => fail (wrongType (if b = openBracket then .sequence else .map) "unit")
      let b ← look .object
      if b = closeBrace then
        skip
        return a
      else fail (.malformed .expectedValue)
  else fail (.malformed .expectedValue)

/-- One of several named values, from a tree: its name, or an object with the name as its only key
and null or an empty object as its value. -/
def tagIn {α : Type} (names : List (String × α)) : Buffered α
  | .string name => named names name
  | .object [(name, unit)] => do
    let a ← named names name
    match unit with
    | .null | .object [] => return a
    | j => throw (wrongType (foundIn j) "unit")
  | .object _ => .error (.misfit (.wrongValue .map "map with a single key"))
  | j => .error (wrongType (foundIn j) "string or map")

/-! ## Sequences -/

def readList {α : Type} (item : Streamed α) : Streamed (List α) := fun room => do
  let b ← look .value
  if b = openBracket then opened room fun room => elements (item room)
  else unexpected b "a sequence"

def listIn {α : Type} (item : Buffered α) : Buffered (List α)
  | .array items => items.mapM item
  | j => .error (wrongType (foundIn j) "a sequence")

end Overlay.Wire
