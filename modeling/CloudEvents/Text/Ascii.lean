/-
  ASCII letter case, on texts held as lists of characters.

  Media types, header names and configuration words are compared without regard to case, but only
  for the letters A to Z: a letter outside ASCII equals itself alone.  `lower` is the one normal
  form used for that, so two texts are equal up to case exactly when their normal forms are equal.
-/

namespace CloudEvents.Text

/-- Each of the letters A to Z becomes its small letter; every other character stays. -/
def lower (s : List Char) : List Char := s.map Char.toLower

/-- Equality up to the case of ASCII letters. -/
def sameIgnoringCase (s t : List Char) : Bool := lower s == lower t

/-- `lower` on strings. -/
def lowerString (s : String) : String := String.ofList (lower s.toList)

/-- An ASCII letter. -/
def isLetter (c : Char) : Bool := c.isAlpha

/-- An ASCII letter or digit. -/
def isAlphanumeric (c : Char) : Bool := c.isAlphanum

/-- The value of a hexadecimal digit, in either case. -/
def hexValue? (c : Char) : Option Nat :=
  if c.isDigit then some (c.toNat - 48)
  else if 'a' ≤ c ∧ c ≤ 'f' then some (c.toNat - 87)
  else if 'A' ≤ c ∧ c ≤ 'F' then some (c.toNat - 55)
  else none

/-- The value of a text of hexadecimal digits; the empty text is zero. -/
def hexNumber? (s : List Char) : Option Nat :=
  s.foldl (fun acc c => acc.bind fun n => (hexValue? c).map (16 * n + ·)) (some 0)

/-- The small hexadecimal digit of a value below sixteen. -/
def hexDigit (n : Nat) : Char := Char.ofNat (if n < 10 then 48 + n else 87 + n)

/-- What becomes of a character: nothing, unless it is a capital letter. -/
theorem toNat_toLower (c : Char) :
    c.toLower.toNat = if 65 ≤ c.toNat ∧ c.toNat ≤ 90 then c.toNat + 32 else c.toNat := by
  have hc : c.val.toNat = c.toNat := rfl
  have ha : 'A'.val.toNat = 65 := rfl
  have hz : 'Z'.val.toNat = 90 := rfl
  unfold Char.toLower
  simp only [ge_iff_le, UInt32.le_iff_toNat_le, hc, ha, hz]
  split
  · show (c.val + 32).toNat = c.toNat + 32
    rw [UInt32.toNat_add, hc]
    show (c.toNat + 32) % 2 ^ 32 = c.toNat + 32
    omega
  · rfl

/-- A small letter stays as it is. -/
theorem lower_lower (s : List Char) : lower (lower s) = lower s := by
  have hchar : ∀ c : Char, c.toLower.toLower = c.toLower := by
    intro c
    have hc := toNat_toLower c
    apply Char.toNat_inj.1
    rw [toNat_toLower c.toLower]
    split at hc <;> split <;> omega
  unfold lower
  rw [List.map_map]
  exact List.map_congr_left fun c _ => hchar c

/-- Equality up to case is equality of the normal forms. -/
theorem sameIgnoringCase_iff {s t : List Char} :
    sameIgnoringCase s t = true ↔ lower s = lower t := by
  simp [sameIgnoringCase]

end CloudEvents.Text
