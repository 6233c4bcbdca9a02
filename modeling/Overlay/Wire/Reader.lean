import Overlay.Wire.Fault

/-!
# Readers

A reader takes a value off the front of a byte sequence or says why it cannot. Readers run one after
the other, so the fault that is reported is the first one in reading order.
-/

namespace Overlay.Wire

/-- Takes a value off the front of the bytes and hands back the rest. -/
def Reader (α : Type) : Type :=
  List UInt8 → Except Fault (α × List UInt8)

namespace Reader

variable {α β : Type}

instance : Monad Reader where
  pure a := fun bytes => .ok (a, bytes)
  bind read next := fun bytes =>
    match read bytes with
    | .ok (a, rest) => next a rest
    | .error fault => .error fault

def fail (fault : Fault) : Reader α :=
  fun _ => .error fault

/-- Gives a value, or refuses, without looking at the bytes. -/
def lift (result : Except Fault α) : Reader α :=
  fun bytes =>
    match result with
    | .ok a => .ok (a, bytes)
    | .error fault => .error fault

theorem bind_apply (read : Reader α) (next : α → Reader β) (bytes : List UInt8) :
    (read >>= next) bytes =
      match read bytes with
      | .ok (a, rest) => next a rest
      | .error fault => .error fault := rfl

theorem bind_of_ok {read : Reader α} {next : α → Reader β} {bytes rest : List UInt8} {a : α}
    (h : read bytes = .ok (a, rest)) : (read >>= next) bytes = next a rest := by
  rw [bind_apply, h]

theorem bind_of_error {read : Reader α} {next : α → Reader β} {bytes : List UInt8} {fault : Fault}
    (h : read bytes = .error fault) : (read >>= next) bytes = .error fault := by
  rw [bind_apply, h]

/-! ## Bytes and blanks -/

def ascii (c : Char) : UInt8 :=
  UInt8.ofNat c.toNat

def openBrace : UInt8 := 0x7B

def closeBrace : UInt8 := 0x7D

def openBracket : UInt8 := 0x5B

def closeBracket : UInt8 := 0x5D

def comma : UInt8 := 0x2C

def colon : UInt8 := 0x3A

def quote : UInt8 := 0x22

def backslash : UInt8 := 0x5C

/-- The four bytes that may stand between tokens: space, tab, line feed and carriage return. -/
def isSpace (b : UInt8) : Bool :=
  b = 0x20 || b = 0x09 || b = 0x0A || b = 0x0D

def isDigit (b : UInt8) : Bool :=
  0x30 ≤ b && b ≤ 0x39

/-- Skips blanks and shows the byte behind them, if any, leaving it in place. -/
def look? : Reader (Option UInt8) :=
  fun bytes =>
    let rest := bytes.dropWhile isSpace
    .ok (rest.head?, rest)

/-- Skips blanks and shows the byte behind them, leaving it in place. -/
def look (atEnd : Unfinished) : Reader UInt8 :=
  fun bytes =>
    match bytes.dropWhile isSpace with
    | [] => .error (.truncated atEnd)
    | b :: rest => .ok (b, b :: rest)

/-- Takes one byte off, if there is one. -/
def skip : Reader Unit :=
  fun bytes => .ok ((), bytes.tail)

/-- Takes off the remaining bytes of a keyword. -/
def keyword : List Char → Reader Unit
  | [] => pure ()
  | c :: cs => fun bytes =>
    match bytes with
    | [] => .error (.truncated .value)
    | b :: rest => if b = ascii c then keyword cs rest else .error (.malformed .expectedKeyword)

/-- Reads to the end: only blanks may follow the value. -/
def whole (read : Reader α) (bytes : List UInt8) : Except Fault α :=
  match read bytes with
  | .error fault => .error fault
  | .ok (a, rest) =>
    if rest.all isSpace then .ok a else .error (.malformed .trailingCharacters)

end Reader

end Overlay.Wire
