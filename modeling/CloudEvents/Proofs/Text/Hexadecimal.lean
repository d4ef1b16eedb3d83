/-
  Hexadecimal numbers are read as they are written, and with them identifiers.

  An identifier is one number of thirty-two digits, cut into groups by hyphens.  The writer takes each group from
  the number by itself; that the groups next to each other are the digits of the whole number again is
  `hexFixed_append`.  The reader takes the hyphens out (`readHyphenated?_groups`), so all that is left is the value
  of thirty-two digits (`hexNumber?_hexFixed`).

  The reader tries its other shapes first.  None of them fits: the text is too long for digits alone, begins with a
  digit, and has a hyphen where a name has its second colon.

  Main statement: `read?_toText`.
-/
import CloudEvents.Uuid
import Mathlib.Algebra.Group.Nat.Defs

namespace CloudEvents

/-! ## Digits -/

namespace Text

theorem hexValue?_hexDigit {n : Nat} (h : n < 16) : hexValue? (hexDigit n) = some n := by
  have hall : ∀ n < 16, hexValue? (hexDigit n) = some n := by decide
  exact hall n h

/-- A further digit makes the number sixteen times as large and adds its own value. -/
theorem hexNumber?_concat (s : List Char) (c : Char) :
    hexNumber? (s ++ [c]) = (hexNumber? s).bind fun n => (hexValue? c).map (16 * n + ·) := by
  simp only [hexNumber?, List.foldl_append, List.foldl_cons, List.foldl_nil]

end Text

namespace Uuid

theorem length_hexFixed (w n : Nat) : (hexFixed w n).length = w := by
  induction w generalizing n with
  | zero => rfl
  | succ w ih => rw [hexFixed, List.length_append, ih, List.length_singleton]

/-- Digits are read as the number that has them at its end. -/
theorem hexNumber?_hexFixed (w n : Nat) : Text.hexNumber? (hexFixed w n) = some (n % 16 ^ w) := by
  induction w generalizing n with
  | zero => rw [Nat.pow_zero, Nat.mod_one]; rfl
  | succ w ih =>
    have hvalue : 16 * (n / 16 % 16 ^ w) + n % 16 = n % 16 ^ (w + 1) := by
      rw [Nat.pow_succ', Nat.mod_mul]
      omega
    rw [hexFixed, Text.hexNumber?_concat, ih, Text.hexValue?_hexDigit (Nat.mod_lt _ (by decide)), Option.bind_some,
      Option.map_some, hvalue]

/-- **Groups of digits next to each other** are the digits of one number. -/
theorem hexFixed_append (v w n : Nat) : hexFixed v (n / 16 ^ w) ++ hexFixed w n = hexFixed (v + w) n := by
  induction w generalizing n with
  | zero => rw [Nat.pow_zero, Nat.div_one]; exact List.append_nil _
  | succ w ih =>
    rw [hexFixed, ← List.append_assoc, Nat.pow_succ', ← Nat.div_div_eq_div_mul, ih]
    rfl

/-! ## Identifiers -/

/-- The reader takes the hyphens out and puts the groups together again. -/
theorem readHyphenated?_groups {a b c d e : List Char} (ha : a.length = 8) (hb : b.length = 4)
    (hc : c.length = 4) (hd : d.length = 4) (he : e.length = 12) :
    readHyphenated? (a ++ '-' :: b ++ '-' :: c ++ '-' :: d ++ '-' :: e) =
      readDigits? (a ++ b ++ c ++ d ++ e) := by
  -- What is dropped goes past the end of every group in front of the one that is taken.
  have hdrop : ∀ {l : List Char} {n : Nat}, l.length ≤ n → l.drop n = [] := List.drop_eq_nil_of_le
  simp [readHyphenated?, List.drop_append, hdrop, ha, hb, hc, hd, he]

theorem readDigits?_hexFixed (u : Uuid) : readDigits? (hexFixed 32 u.bits.toNat) = some u := by
  have hlt : u.bits.toNat < 16 ^ 32 := u.bits.isLt
  rw [readDigits?, if_pos (length_hexFixed 32 _), hexNumber?_hexFixed, Nat.mod_eq_of_lt hlt, Option.map_some,
    BitVec.ofNat_toNat, BitVec.setWidth_eq]

/-- **A written id is read back** in the form with hyphens. -/
theorem readHyphenated?_write (u : Uuid) : readHyphenated? u.write = some u := by
  have hgroups : ∀ n : Nat,
      hexFixed 8 (n / 16 ^ 24) ++ hexFixed 4 (n / 16 ^ 20) ++ hexFixed 4 (n / 16 ^ 16) ++
        hexFixed 4 (n / 16 ^ 12) ++ hexFixed 12 n = hexFixed 32 n := by
    intro n
    rw [List.append_assoc, hexFixed_append 4 12, List.append_assoc, hexFixed_append 4 16, List.append_assoc,
      hexFixed_append 4 20, hexFixed_append 8 24]
  unfold write
  rw [readHyphenated?_groups (length_hexFixed _ _) (length_hexFixed _ _) (length_hexFixed _ _)
    (length_hexFixed _ _) (length_hexFixed _ _)]
  exact (congrArg readDigits? (hgroups u.bits.toNat)).trans (readDigits?_hexFixed u)

theorem mem_hexFixed {w n : Nat} {c : Char} (h : c ∈ hexFixed w n) : ∃ k < 16, c = Text.hexDigit k := by
  induction w generalizing n with
  | zero => exact absurd h (by simp [hexFixed])
  | succ w ih =>
    rcases List.mem_append.1 h with h | h
    · exact ih h
    · exact ⟨n % 16, Nat.mod_lt _ (by decide), List.mem_singleton.1 h⟩

/-- There are digits and hyphens in the text of an identifier, and nothing else. -/
theorem mem_write {u : Uuid} {c : Char} (h : c ∈ u.write) : c = '-' ∨ ∃ k < 16, c = Text.hexDigit k := by
  simp only [write, List.mem_append, List.mem_cons] at h
  rcases h with (((h | h | h) | h | h) | h | h) | h | h
  all_goals first | exact .inl h | exact .inr (mem_hexFixed h)

/-- A character that is neither a digit nor a hyphen, in either case, is not in it. -/
theorem toLower_ne_of_mem_write {u : Uuid} {c x : Char} (h : c ∈ u.write)
    (hx : x ≠ '-' ∧ ∀ k < 16, (Text.hexDigit k).toLower ≠ x) : c.toLower ≠ x := by
  rcases mem_write h with rfl | ⟨k, hk, rfl⟩
  · exact fun heq => hx.1 heq.symm
  · exact hx.2 k hk

/-- **An identifier is read as it is written.** -/
theorem read?_toText (u : Uuid) : read? u.toText = some u := by
  have hdigits : readDigits? u.write = none := by
    have hlength : u.write.length = 36 := by simp [write, length_hexFixed]
    rw [readDigits?, if_neg (by rw [hlength]; decide)]
  have hbrace : ∀ r, u.write ≠ '{' :: r := by
    intro r heq
    have hmem : '{' ∈ u.write := heq ▸ List.mem_cons_self
    exact toLower_ne_of_mem_write hmem (x := '{') (by decide) (by decide)
  have hurn : Text.sameIgnoringCase (u.write.take urn.length) urn = false := by
    rw [Bool.eq_false_iff]
    intro hsame
    have hcolon : ':' ∈ Text.lower (u.write.take urn.length) := by
      rw [Text.sameIgnoringCase_iff.1 hsame]
      decide
    obtain ⟨c, hc, hlower⟩ := List.mem_map.1 hcolon
    exact toLower_ne_of_mem_write (List.mem_of_mem_take hc) (by decide) hlower
  -- The three shapes that are tried before the hyphenated one are out; `hbrace` decides the match.
  unfold read? toText
  simp only [String.toList_ofList, hdigits, hurn, Bool.false_eq_true, if_false]
  exact readHyphenated?_write u

end Uuid

end CloudEvents
