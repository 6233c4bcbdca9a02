import Overlay.Identity.Text
import Overlay.Json.Printer
import Overlay.Text.Quoted

/-!
# Why a wire text is refused

A fault is of one of three categories: the text is no JSON, the text ends too early, or the text is
JSON so far but not what the record at this place asks for. Reading goes from left to right and
reports the first fault it meets, whatever its category.
-/

namespace Overlay.Wire

/-- What is wrong with a text that is no JSON. -/
inductive Malformation where
  | expectedValue
  | expectedKeyword
  | expectedColon
  | expectedCommaOrBrace
  | expectedCommaOrBracket
  | trailingComma
  | trailingCharacters
  | keyNotString
  | invalidNumber
  | numberOutOfRange
  | invalidEscape
  | loneSurrogate
  | unpairedSurrogate
  | controlCharacter
  | invalidCodePoint
  | tooDeep
deriving DecidableEq, Repr

/-- What was being read when the text ended. -/
inductive Unfinished where
  | value
  | list
  | object
  | string
deriving DecidableEq, Repr

inductive Found where
  | null
  | bool (value : Bool)
  | number (value : Number)
  | string (value : String)
  | sequence
  | map
deriving DecidableEq, Repr

/-- What is wrong with a JSON text that does not fit the record. -/
inductive Misfit where
  | wrongType (found : Found) (expected : String)
  | wrongValue (found : Found) (expected : String)
  | wrongLength (length : Nat) (expected : String)
  | unknownVariant (name : String) (known : List String)
  | duplicateField (name : String)
  | missingField (name : String)
  | badIdentity (defect : IdentityError)
  | badUuid
deriving DecidableEq, Repr

/-- Why a wire text is refused. -/
inductive Fault where
  | malformed (what : Malformation)
  | truncated (what : Unfinished)
  | misfit (what : Misfit)
deriving DecidableEq, Repr

inductive Category where
  | form
  | ending
  | data
deriving DecidableEq, Repr

def Fault.category : Fault → Category
  | .malformed _ => .form
  | .truncated _ => .ending
  | .misfit _ => .data

/-! ## Wording -/

def Malformation.message : Malformation → String
  | .expectedValue => "expected value"
  | .expectedKeyword => "expected ident"
  | .expectedColon => "expected `:`"
  | .expectedCommaOrBrace => "expected `,` or `\x7d`"
  | .expectedCommaOrBracket => "expected `,` or `]`"
  | .trailingComma => "trailing comma"
  | .trailingCharacters => "trailing characters"
  | .keyNotString => "key must be a string"
  | .invalidNumber => "invalid number"
  | .numberOutOfRange => "number out of range"
  | .invalidEscape => "invalid escape"
  | .loneSurrogate => "lone leading surrogate in hex escape"
  | .unpairedSurrogate => "unexpected end of hex escape"
  | .controlCharacter => "control character (\\u0000-\\u001F) found while parsing a string"
  | .invalidCodePoint => "invalid unicode code point"
  | .tooDeep => "recursion limit exceeded"

def Unfinished.message : Unfinished → String
  | .value => "EOF while parsing a value"
  | .list => "EOF while parsing a list"
  | .object => "EOF while parsing an object"
  | .string => "EOF while parsing a string"

def ticked (s : String) : String :=
  "`" ++ s ++ "`"

def Found.message : Found → String
  | .null => "null"
  | .bool b => "boolean " ++ ticked (if b then "true" else "false")
  | .number (.whole n h) => "integer " ++ ticked (String.ofList (Json.numberText (.whole n h)))
  | .number (.real x) => "floating point " ++ ticked (String.ofList (Json.numberText (.real x)))
  | .string s => "string " ++ Text.quoted s
  | .sequence => "sequence"
  | .map => "map"

/-- What may stand in place of an unknown variant. -/
def knownVariants : List String → String
  | [] => "there are no variants"
  | [a] => "expected " ++ ticked a
  | [a, b] => "expected " ++ ticked a ++ " or " ++ ticked b
  | known => "expected one of " ++ ", ".intercalate (known.map ticked)

/-- The decimal digits at the head of a text and what follows them. -/
def spanDigits (s : List Char) : List Char × List Char :=
  s.span fun c => '0' ≤ c ∧ c ≤ '9'

/-- Whether a text is a decimal numeral below `2 ^ 64`, digits only. -/
def isWordNumeral (s : List Char) : Bool :=
  match Radix.read 10 0x10000000000000000 s with
  | .ok _ => true
  | .error _ => false

/-- Whether a text is all of a position: ` at line `, a number, ` column `, a number. -/
def isPosition (s : List Char) : Bool :=
  let head := " at line ".toList
  let middle := " column ".toList
  if s.take head.length = head then
    let (line, rest) := spanDigits (s.drop head.length)
    if rest.take middle.length = middle then
      let (column, rest) := spanDigits (rest.drop middle.length)
      rest.isEmpty && isWordNumeral line && isWordNumeral column
    else false
  else false

/-- The text without the position that it ends in, if any. A fault's place in the input is reported
apart from its wording, and a wording that ends like a position counts as one that has its place. -/
def withoutPosition : List Char → List Char
  | [] => []
  | c :: cs => if isPosition (c :: cs) then [] else c :: withoutPosition cs

def Misfit.message : Misfit → String
  | .wrongType found expected => "invalid type: " ++ found.message ++ ", expected " ++ expected
  | .wrongValue found expected => "invalid value: " ++ found.message ++ ", expected " ++ expected
  | .wrongLength n expected =>
    "invalid length " ++ Radix.decimal n ++ ", expected " ++ expected
  | .unknownVariant name known => "unknown variant " ++ ticked name ++ ", " ++ knownVariants known
  | .duplicateField name => "duplicate field " ++ ticked name
  | .missingField name => "missing field " ++ ticked name
  | .badIdentity defect => String.ofList (withoutPosition defect.message.toList)
  | .badUuid => "UUID parsing failed"

def Fault.message : Fault → String
  | .malformed what => what.message
  | .truncated what => what.message
  | .misfit what => what.message

end Overlay.Wire
