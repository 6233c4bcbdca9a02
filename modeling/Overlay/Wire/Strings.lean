import Overlay.Text.Utf8
import Overlay.Wire.Reader

/-!
# Strings in a wire text

A string is read up to its closing quote. Escapes are resolved on the way, a character beyond the
basic plane being written as a pair of surrogate escapes, and the bytes are checked as UTF-8 once
the string is complete. A string that nobody asked for is only checked for the form of its escapes
and for control characters.
-/

namespace Overlay.Wire.Reader

/-- The byte that a one-letter escape stands for. -/
def plainEscape (b : UInt8) : Option UInt8 :=
  if b = quote then some quote
  else if b = backslash then some backslash
  else if b = ascii '/' then some (ascii '/')
  else if b = ascii 'b' then some 0x08
  else if b = ascii 'f' then some 0x0C
  else if b = ascii 'n' then some 0x0A
  else if b = ascii 'r' then some 0x0D
  else if b = ascii 't' then some 0x09
  else none

/-- The value of a hexadecimal digit of either case. -/
def hexDigit (b : UInt8) : Option Nat :=
  Radix.digitIn 16 (Char.ofNat b.toNat)

def hexUnit (a b c d : UInt8) : Option Nat := do
  return (((← hexDigit a) * 16 + (← hexDigit b)) * 16 + (← hexDigit c)) * 16 + (← hexDigit d)

/-- Whether a unit is the first half of a pair. -/
def isLeading (n : Nat) : Bool :=
  0xD800 ≤ n && n ≤ 0xDBFF

def isTrailing (n : Nat) : Bool :=
  0xDC00 ≤ n && n ≤ 0xDFFF

/-- The code point of a pair. -/
def joinPair (n m : Nat) : Nat :=
  0x10000 + (n - 0xD800) * 0x400 + (m - 0xDC00)

def codePointBytes (n : Nat) : List UInt8 :=
  String.utf8EncodeChar (Char.ofNat n)

/-- Puts bytes in front of those of a string that was read. -/
def prepend (bs : List UInt8) :
    Except Fault (List UInt8 × List UInt8) → Except Fault (List UInt8 × List UInt8)
  | .ok (s, rest) => .ok (bs ++ s, rest)
  | .error fault => .error fault

/-- The bytes of a string whose opening quote is gone, and what follows its closing quote. -/
def stringBytes : List UInt8 → Except Fault (List UInt8 × List UInt8)
  | [] => .error (.truncated .string)
  | b :: rest =>
    if b = quote then .ok ([], rest)
    else if b = backslash then
      match rest with
      | [] => .error (.truncated .string)
      | e :: rest =>
        match plainEscape e with
        | some c => prepend [c] (stringBytes rest)
        | none =>
          if e = ascii 'u' then
            match rest with
            | h₁ :: h₂ :: h₃ :: h₄ :: rest =>
              match hexUnit h₁ h₂ h₃ h₄ with
              | none => .error (.malformed .invalidEscape)
              | some n =>
                if isTrailing n then .error (.malformed .loneSurrogate)
                else if isLeading n then
                  match rest with
                  | [] => .error (.truncated .string)
                  | c :: rest =>
                    if c = backslash then
                      match rest with
                      | [] => .error (.truncated .string)
                      | d :: rest =>
                        if d = ascii 'u' then
                          match rest with
                          | g₁ :: g₂ :: g₃ :: g₄ :: rest =>
                            match hexUnit g₁ g₂ g₃ g₄ with
                            | none => .error (.malformed .invalidEscape)
                            | some m =>
                              if isTrailing m then
                                prepend (codePointBytes (joinPair n m)) (stringBytes rest)
                              else .error (.malformed .loneSurrogate)
                          | _ => .error (.truncated .string)
                        else .error (.malformed .unpairedSurrogate)
                    else .error (.malformed .unpairedSurrogate)
                else prepend (codePointBytes n) (stringBytes rest)
            | _ => .error (.truncated .string)
          else .error (.malformed .invalidEscape)
    else if b < 0x20 then .error (.malformed .controlCharacter)
    else prepend [b] (stringBytes rest)

def stringBody : Reader String :=
  fun bytes =>
    match stringBytes bytes with
    | .error fault => .error fault
    | .ok (s, rest) =>
      match Utf8.decode s with
      | some cs => .ok (String.ofList cs, rest)
      | none => .error (.malformed .invalidCodePoint)

/-- Skips a string whose opening quote is gone; surrogates and bytes beyond ASCII pass unchecked. -/
def skipStringBody : List UInt8 → Except Fault (Unit × List UInt8)
  | [] => .error (.truncated .string)
  | b :: rest =>
    if b = quote then .ok ((), rest)
    else if b = backslash then
      match rest with
      | [] => .error (.truncated .string)
      | e :: rest =>
        match plainEscape e with
        | some _ => skipStringBody rest
        | none =>
          if e = ascii 'u' then
            match rest with
            | h₁ :: h₂ :: h₃ :: h₄ :: rest =>
              match hexUnit h₁ h₂ h₃ h₄ with
              | none => .error (.malformed .invalidEscape)
              | some _ => skipStringBody rest
            | _ => .error (.truncated .string)
          else .error (.malformed .invalidEscape)
    else if b < 0x20 then .error (.malformed .controlCharacter)
    else skipStringBody rest

end Overlay.Wire.Reader
