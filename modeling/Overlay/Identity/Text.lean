import Overlay.Identity.Basic

/-!
# The text form of an identity

`KIND:UUID` or `KIND:UUID:RUN`: three letters, the 32 digits of the identifier and the run number in
base 32. Reading accepts every spelling of the identifier that has no colon, and a run number with a
plus sign, with leading zeros and in either case. Of several defects the one in the leftmost part is
reported, but a wrong number of parts before all others.
-/

namespace Overlay

/-- Why a text is no identity. -/
inductive IdentityError where
  | badShape
  | unknownKind (kind : String)
  | badUuid
  | badRun (defect : Radix.NumeralError)
deriving DecidableEq, Repr

def IdentityError.message : IdentityError → String
  | .badShape => "Invalid identity format: expected KIND:UUID[:INSTANCE]"
  | .unknownKind kind => "Unknown identity kind: " ++ kind
  | .badUuid => "Invalid uuid"
  | .badRun defect => "Invalid instance suffix: " ++ defect.message

namespace Identity

/-- The parts of a text between its colons; one more than there are colons. -/
def parts : List Char → List (List Char)
  | [] => [[]]
  | c :: cs =>
    match parts cs with
    | [] => [[]]
    | p :: ps => if c = ':' then [] :: p :: ps else (c :: p) :: ps

def text (i : Identity) : List Char :=
  i.kind.tag.toList ++ ':' :: i.uuid.simple ++
    match i.run with
    | none => []
    | some n => ':' :: Radix.write 32 n.toNat

def display (i : Identity) : String :=
  String.ofList i.text

def outline (i : Identity) : String :=
  let run := match i.run with
    | none => "None"
    | some n => "Some(" ++ Radix.decimal n.toNat ++ ")"
  "Identity \x7b kind: " ++ i.kind.name ++ ", uuid: " ++ String.ofList i.uuid.hyphenated ++
    ", instance: " ++ run ++ " \x7d"

/-- Reads the parts for the kind and the identifier. -/
def ofParts (kind uuid : List Char) : Except IdentityError Identity :=
  match IdentityKind.ofTag? (String.ofList kind) with
  | none => .error (.unknownKind (String.ofList kind))
  | some k =>
    match Uuid.parse? uuid with
    | none => .error .badUuid
    | some u => .ok ⟨k, u, none⟩

/-- Reads an identity from its text (`Identity::from_str`). -/
def parse (s : List Char) : Except IdentityError Identity :=
  match parts s with
  | [kind, uuid] => ofParts kind uuid
  | [kind, uuid, run] =>
    match ofParts kind uuid with
    | .error e => .error e
    | .ok i =>
      match Radix.read 32 0x10000000000000000 run with
      | .error e => .error (.badRun e)
      | .ok n => .ok { i with run := some (UInt64.ofNat n) }
  | _ => .error .badShape

end Identity

end Overlay
