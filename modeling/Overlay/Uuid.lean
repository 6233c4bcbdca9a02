import Overlay.Text.Radix

/-!
# Universally unique identifiers

A number of 128 bits, written as 32 hexadecimal digits, plainly or in five groups that hyphens part.
It is read from either form in digits of either case, and from the grouped form also in braces or
behind `urn:uuid:` in letters of either case.
-/

namespace Overlay

/-- A number of 128 bits. -/
structure Uuid where
  toNat : Nat
  toNat_lt : toNat < 0x100000000000000000000000000000000
deriving DecidableEq, Repr

namespace Uuid

instance : Inhabited Uuid := ⟨0, by decide⟩

/-- The identifier with the given number, higher bits dropped. -/
def ofNat (n : Nat) : Uuid :=
  ⟨n % 0x100000000000000000000000000000000, Nat.mod_lt _ (by decide)⟩

instance : Ord Uuid := ⟨fun a b => compare a.toNat b.toNat⟩

def simple (u : Uuid) : List Char :=
  Radix.writePadded 16 32 u.toNat

def hyphenated (u : Uuid) : List Char :=
  let ds := u.simple
  ds.take 8 ++ '-' :: (ds.drop 8).take 4 ++ '-' :: (ds.drop 12).take 4 ++ '-' ::
    (ds.drop 16).take 4 ++ '-' :: ds.drop 20

/-- Reads exactly 32 digits. -/
def ofSimple? (s : List Char) : Option Uuid :=
  if s.length = 32 then
    match Radix.readDigits 16 0x100000000000000000000000000000000 0 s with
    | .ok n => some (ofNat n)
    | .error _ => none
  else none

/-- Reads the five groups: 36 characters, hyphens at the four places and digits elsewhere. -/
def ofHyphenated? (s : List Char) : Option Uuid :=
  if s.length = 36 ∧ s[8]? = some '-' ∧ s[13]? = some '-' ∧ s[18]? = some '-' ∧
      s[23]? = some '-' then
    ofSimple? (s.take 8 ++ (s.drop 9).take 4 ++ (s.drop 14).take 4 ++ (s.drop 19).take 4 ++
      s.drop 24)
  else none

/-- The text between a pair of braces around all of it. -/
def unbraced? : List Char → Option (List Char)
  | [] => none
  | c :: cs =>
    if c.toNat = 0x7B ∧ (cs.getLast?.map Char.toNat) = some 0x7D then some cs.dropLast else none

/-- The text behind `urn:uuid:`, in letters of either case. -/
def afterUrn? (s : List Char) : Option (List Char) :=
  if (s.take 9).map Char.toLower = "urn:uuid:".toList then some (s.drop 9) else none

/-- Reads any of the four forms. -/
def parse? (s : List Char) : Option Uuid :=
  (ofSimple? s).or ((ofHyphenated? s).or
    (((unbraced? s).bind ofHyphenated?).or ((afterUrn? s).bind ofHyphenated?)))

end Uuid

end Overlay
