/-
  Universally unique identifiers.

  An identifier is 128 bits.  It is written as thirty-two small hexadecimal digits in groups of 8, 4,
  4, 4 and 12, with hyphens between them.  Reading takes digits of either case, and three more shapes:
  no hyphens at all, braces around the hyphenated form, and `urn:uuid:` in front of it.

  A fresh event id is a version 7 identifier, which begins with the time at which it was made.
-/
import CloudEvents.Text.Ascii

namespace CloudEvents

/-- An identifier of 128 bits. -/
structure Uuid where
  bits : BitVec 128
  deriving DecidableEq, Repr

namespace Uuid

/-- The last `width` hexadecimal digits of a number. -/
def hexFixed : (width : Nat) → Nat → List Char
  | 0, _ => []
  | w + 1, n => hexFixed w (n / 16) ++ [Text.hexDigit (n % 16)]

/-- The hyphenated form. -/
def write (u : Uuid) : List Char :=
  let n := u.bits.toNat
  hexFixed 8 (n / Nat.pow 16 24) ++ '-' :: hexFixed 4 (n / Nat.pow 16 20) ++
    '-' :: hexFixed 4 (n / Nat.pow 16 16) ++ '-' :: hexFixed 4 (n / Nat.pow 16 12) ++ '-' :: hexFixed 12 n

/-- The hyphenated form as a string. -/
def toText (u : Uuid) : String := String.ofList u.write

/-- Thirty-two digits without hyphens. -/
def readDigits? (s : List Char) : Option Uuid :=
  if s.length = 32 then (Text.hexNumber? s).map fun n => ⟨BitVec.ofNat 128 n⟩ else none

/-- The hyphenated form, in digits of either case. -/
def readHyphenated? (s : List Char) : Option Uuid :=
  if s.length = 36 ∧ s[8]? = some '-' ∧ s[13]? = some '-' ∧ s[18]? = some '-' ∧ s[23]? = some '-' then
    readDigits? (s.take 8 ++ (s.drop 9).take 4 ++ (s.drop 14).take 4 ++ (s.drop 19).take 4 ++
      s.drop 24)
  else none

/-- What stands in front of an identifier that is written as a name, in letters of either case. -/
def urn : List Char := "urn:uuid:".toList

/-- An identifier in any of its four shapes. -/
def read? (text : String) : Option Uuid :=
  let s := text.toList
  match readDigits? s with
  | some u => some u
  | none =>
    match s with
    | '{' :: r => if r.getLast? = some '}' then readHyphenated? r.dropLast else none
    | s =>
      if Text.sameIgnoringCase (s.take urn.length) urn then readHyphenated? (s.drop urn.length)
      else readHyphenated? s

/-- The version 7 identifier of a time in milliseconds and 74 random bits. -/
def version7 (millis random : Nat) : Uuid :=
  let a := random / Nat.pow 2 62 % Nat.pow 2 12
  let b := random % Nat.pow 2 62
  -- Time, version, random bits, variant, random bits.
  ⟨BitVec.ofNat 128 (millis % Nat.pow 2 48 * Nat.pow 2 80 + 7 * Nat.pow 2 76 + a * Nat.pow 2 64 +
    2 * Nat.pow 2 62 + b)⟩

end Uuid

example : ((Uuid.read? "0190A5E47B1C7CC398C4DC0C0C07398F").map Uuid.toText) =
    some "0190a5e4-7b1c-7cc3-98c4-dc0c0c07398f" := by decide +kernel

end CloudEvents
