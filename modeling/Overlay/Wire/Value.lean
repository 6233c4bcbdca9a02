import Overlay.Json.Normal
import Overlay.Wire.Numerals
import Overlay.Wire.Strings

/-!
# JSON values in a wire text

Arrays and objects are read element by element. How many of them may still be opened inside each
other is counted down as `room`, from 127 for a whole text, so the recursion is on `room`; the loop
over the elements is bounded by the number of bytes, each round taking at least one. Values that
nobody asked for are skipped with an explicit stack and may be nested to any depth.
-/

namespace Overlay.Wire.Reader

variable {α : Type}

/-- How many arrays and objects may be open at once in a text. -/
def fullRoom : Nat := 127

/-! ## Scalars -/

/-- Reads the scalar that starts with the given byte; `none` stands for an array or an object, whose
bracket stays in place. -/
def scalar? (b : UInt8) : Reader (Option Json) := do
  if b = ascii 'n' then
    skip
    keyword ['u', 'l', 'l']
    return some .null
  else if b = ascii 't' then
    skip
    keyword ['r', 'u', 'e']
    return some (.bool true)
  else if b = ascii 'f' then
    skip
    keyword ['a', 'l', 's', 'e']
    return some (.bool false)
  else if b = ascii '-' then
    skip
    return some (.number (← number true))
  else if isDigit b then
    return some (.number (← number false))
  else if b = quote then
    skip
    return some (.string (← stringBody))
  else if b = openBracket || b = openBrace then
    return none
  else
    fail (.malformed .expectedValue)

/-! ## The frame of arrays and objects -/

/-- Moves on to the next element of an array: true if there is one, false before the bracket. -/
def nextElement (first : Bool) : Reader Bool := do
  let b ← look .list
  if b = closeBracket then return false
  if first then return true
  if b = comma then
    skip
    if (← look .value) = closeBracket then fail (.malformed .trailingComma)
    return true
  fail (.malformed .expectedCommaOrBracket)

/-- Takes off the bracket behind the last element that was asked for. -/
def endArray : Reader Unit := do
  let b ← look .list
  if b = closeBracket then skip
  else if b = comma then
    skip
    if (← look?) = some closeBracket then fail (.malformed .trailingComma)
    else fail (.malformed .trailingCharacters)
  else fail (.malformed .trailingCharacters)

/-- Reads the next key of an object, where there is one; none before the brace. -/
def nextKey (first : Bool) : Reader (Option String) := do
  let b ← look .object
  if b = closeBrace then return none
  if !first && b = comma then
    skip
    let b ← look .value
    if b = closeBrace then fail (.malformed .trailingComma)
    if b = quote then
      skip
      return some (← stringBody)
    fail (.malformed .keyNotString)
  if !first then fail (.malformed .expectedCommaOrBrace)
  if b = quote then
    skip
    return some (← stringBody)
  fail (.malformed .keyNotString)

def endObject : Reader Unit := do
  let b ← look .object
  if b = closeBrace then skip
  else if b = comma then fail (.malformed .trailingComma)
  else fail (.malformed .trailingCharacters)

def colonMark : Reader Unit := do
  let b ← look .object
  if b = colon then skip else fail (.malformed .expectedColon)

/-- Reads elements up to the bracket, in at most `rounds` rounds. -/
def elementsIn (item : Reader α) : Nat → Bool → Reader (List α)
  | 0, _ => fail (.truncated .list)
  | rounds + 1, first => do
    if ← nextElement first then
      let a ← item
      return a :: (← elementsIn item rounds false)
    else return []

def elements (item : Reader α) : Reader (List α) :=
  fun bytes =>
    (do
      let items ← elementsIn item (bytes.length + 1) true
      endArray
      return items : Reader (List α)) bytes

/-- Reads members up to the brace, in at most `rounds` rounds, each adding to what the earlier ones
made. -/
def foldMembersIn (step : α → String → Reader α) : Nat → Bool → α → Reader α
  | 0, _, _ => fail (.truncated .object)
  | rounds + 1, first, a => do
    match ← nextKey first with
    | none => return a
    | some key => foldMembersIn step rounds false (← step a key)

def foldMembers (step : α → String → Reader α) (first : Bool) (a : α) : Reader α :=
  fun bytes => foldMembersIn step (bytes.length + 1) first a bytes

/-! ## Whole values -/

def memberOf (value : Reader Json) (members : List (String × Json)) (key : String) :
    Reader (List (String × Json)) := do
  colonMark
  return members ++ [(key, ← value)]

/-- Reads a value whose arrays and objects hold what `inner` reads; none stands for no room. -/
def valueWith (inner : Option (Reader Json)) : Reader Json := do
  let b ← look .value
  match ← scalar? b with
  | some j => return j
  | none =>
    match inner with
    | none => fail (.malformed .tooDeep)
    | some inner =>
      skip
      if b = openBracket then
        return .array (← elements inner)
      else
        let members ← foldMembers (memberOf inner) true []
        endObject
        return .object members

/-- Reads a value in which at most `room` arrays and objects are open at once. -/
def value : Nat → Reader Json
  | 0 => valueWith none
  | room + 1 => valueWith (some (value room))

/-! ## Values that nobody asked for -/

/-- An array or an object that is being skipped. -/
inductive Nest where
  | list
  | object
deriving DecidableEq

/-- Skips the key and the colon of a member, where an object is being skipped. -/
def skipKey : Nest → Reader Unit
  | .list => pure ()
  | .object => do
    let b ← look .object
    if b = quote then
      skip
      skipStringBody
      let b ← look .object
      if b = colon then skip else fail (.malformed .expectedColon)
    else fail (.malformed .keyNotString)

/-- What a closing bracket or the end of the text means inside an array or an object. -/
def Nest.closer : Nest → UInt8
  | .list => closeBracket
  | .object => closeBrace

def Nest.unfinished : Nest → Unfinished
  | .list => .list
  | .object => .object

def Nest.expected : Nest → Malformation
  | .list => .expectedCommaOrBracket
  | .object => .expectedCommaOrBrace

/-- Closes what can be closed behind a value, or behind an opening bracket if `afterValue` is false,
and goes to the place of the next value: the stack that it is in, or none if all is closed. -/
def skipClosers (afterValue : Bool) : List Nest → Reader (List Nest)
  | [] => pure []
  | nest :: outer => do
    let b ← look nest.unfinished
    if afterValue && b = comma then
      skip
      skipKey nest
      return nest :: outer
    else if b = nest.closer then
      skip
      skipClosers true outer
    else if afterValue then fail (.malformed nest.expected)
    else
      skipKey nest
      return nest :: outer

/-- Skips one value inside the open arrays and objects, and all that follows inside them, in at most
`rounds` rounds. -/
def skipIn : Nat → List Nest → Reader Unit
  | 0, _ => fail (.truncated .value)
  | rounds + 1, nests => do
    let b ← look .value
    let opened ←
      if b = ascii 'n' then do
        skip
        keyword ['u', 'l', 'l']
        pure none
      else if b = ascii 't' then do
        skip
        keyword ['r', 'u', 'e']
        pure none
      else if b = ascii 'f' then do
        skip
        keyword ['a', 'l', 's', 'e']
        pure none
      else if b = ascii '-' then do
        skip
        skipNumber
        pure none
      else if isDigit b then do
        skipNumber
        pure none
      else if b = quote then do
        skip
        skipStringBody
        pure none
      else if b = openBracket then do
        skip
        pure (some Nest.list)
      else if b = openBrace then do
        skip
        pure (some Nest.object)
      else fail (.malformed .expectedValue)
    let nests ←
      match opened with
      | none => skipClosers true nests
      | some nest => skipClosers false (nest :: nests)
    if nests.isEmpty then return () else skipIn rounds nests

def skipValue : Reader Unit :=
  fun bytes => skipIn (bytes.length + 1) [] bytes

end Overlay.Wire.Reader

namespace Overlay

def Json.parse (bytes : List UInt8) : Except Wire.Fault Json :=
  Wire.Reader.whole (Wire.Reader.value Wire.Reader.fullRoom) bytes

end Overlay
