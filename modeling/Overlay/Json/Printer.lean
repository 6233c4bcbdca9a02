import Overlay.Json.Basic
import Overlay.Number.Shortest
import Overlay.Text.Radix

/-!
# The compact text of a JSON tree

No blanks between tokens, members in the order of the tree. In strings the quote, the backslash and
the controls are escaped and all other characters stand for themselves. A binary number is given by
its shortest decimal: positional, with at least one digit behind the point, from `1e-5` up to, not
including, `1e16`, and with a signed exponent elsewhere.
-/

namespace Overlay.Json

/-- How a character is written inside a string. -/
def escaped (c : Char) : List Char :=
  match c.toNat with
  | 0x22 => ['\\', '"']
  | 0x5C => ['\\', '\\']
  | 0x08 => ['\\', 'b']
  | 0x09 => ['\\', 't']
  | 0x0A => ['\\', 'n']
  | 0x0C => ['\\', 'f']
  | 0x0D => ['\\', 'r']
  | n => if n < 0x20 then '\\' :: 'u' :: Radix.writePadded 16 4 n else [c]

def stringText (s : String) : List Char :=
  '"' :: s.toList.flatMap escaped ++ ['"']

/-- The text of `coefficient * 10 ^ exponent`. -/
def decimalText (d : Binary64.Decimal) : List Char :=
  let ds := Radix.write 10 d.coefficient
  let point : Int := ds.length + d.exponent
  if d.coefficient = 0 then ['0', '.', '0']
  else if -4 ≤ point ∧ point ≤ 16 then
    if point ≤ 0 then '0' :: '.' :: List.replicate (-point).toNat '0' ++ ds
    else if ds.length ≤ point then ds ++ List.replicate (point - ds.length).toNat '0' ++ ['.', '0']
    else ds.take point.toNat ++ '.' :: ds.drop point.toNat
  else
    let e := point - 1
    ds.take 1 ++ (if ds.length = 1 then [] else '.' :: ds.drop 1) ++
      'e' :: (if 0 ≤ e then '+' else '-') :: Radix.write 10 e.natAbs

def realText (x : Binary64) : List Char :=
  (if x.negative then ['-'] else []) ++ decimalText x.shortest

def wholeText (n : Int) : List Char :=
  (if n < 0 then ['-'] else []) ++ Radix.write 10 n.natAbs

def numberText : Number → List Char
  | .whole n _ => wholeText n
  | .real x => realText x

mutual

/-- The compact text of a tree. -/
def text : Json → List Char
  | .null => ['n', 'u', 'l', 'l']
  | .bool true => ['t', 'r', 'u', 'e']
  | .bool false => ['f', 'a', 'l', 's', 'e']
  | .number n => numberText n
  | .string s => stringText s
  | .array [] => ['[', ']']
  | .array (a :: as) => '[' :: text a ++ textItems as ++ [']']
  | .object [] => [Char.ofNat 0x7B, Char.ofNat 0x7D]
  | .object ((k, a) :: ms) =>
    Char.ofNat 0x7B :: stringText k ++ ':' :: text a ++ textMembers ms ++ [Char.ofNat 0x7D]

/-- The texts of further items, each behind a comma. -/
def textItems : List Json → List Char
  | [] => []
  | a :: as => ',' :: text a ++ textItems as

def textMembers : List (String × Json) → List Char
  | [] => []
  | (k, a) :: ms => ',' :: stringText k ++ ':' :: text a ++ textMembers ms

end

def display (j : Json) : String :=
  String.ofList j.text

end Overlay.Json
