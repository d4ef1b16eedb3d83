/-
  White space and control characters, and the two cuts that need them.

  "White space" here is the Unicode property White_Space, twenty-five characters, and "control" is
  the general category Cc.  Both are written out as ranges, because the classes of `Char` know
  ASCII only and would let a no-break space or a next-line through.
-/

namespace CloudEvents.Text

/-- The Unicode property White_Space. -/
def isBlank (c : Char) : Bool :=
  let n := c.toNat
  (0x09 ≤ n && n ≤ 0x0D) || n == 0x20 || n == 0x85 || n == 0xA0 || n == 0x1680 ||
    (0x2000 ≤ n && n ≤ 0x200A) || n == 0x2028 || n == 0x2029 || n == 0x202F || n == 0x205F ||
    n == 0x3000

/-- The Unicode general category Cc: the C0 and C1 controls and delete. -/
def isControl (c : Char) : Bool :=
  let n := c.toNat
  n ≤ 0x1F || (0x7F ≤ n && n ≤ 0x9F)

/-- Drops the characters of a class at both ends. -/
def strip (p : Char → Bool) (s : List Char) : List Char :=
  ((s.dropWhile p).reverse.dropWhile p).reverse

/-- Drops the white space at both ends. -/
def trim (s : List Char) : List Char := strip isBlank s

/-- `trim` on strings. -/
def trimString (s : String) : String := String.ofList (trim s.toList)

/-- A text of white space alone, the empty text included. -/
def isAllBlank (s : List Char) : Bool := s.all isBlank

/-- No digit is white space. -/
theorem isBlank_eq_false_of_isDigit {c : Char} (h : c.isDigit = true) : isBlank c = false := by
  simp only [Char.isDigit, ge_iff_le, UInt32.le_iff_toNat_le, Bool.and_eq_true, decide_eq_true_eq] at h
  have h1 : 48 ≤ c.toNat := h.1
  have h2 : c.toNat ≤ 57 := h.2
  simp only [isBlank, Bool.or_eq_false_iff, Bool.and_eq_false_iff, decide_eq_false_iff_not,
    beq_eq_false_iff_ne]
  omega

/-- A text with something other than white space at both ends has nothing to trim. -/
theorem trim_eq_self {c d : Char} {s : List Char} (hc : isBlank c = false) (hd : isBlank d = false) :
    trim (c :: s ++ [d]) = c :: s ++ [d] := by
  unfold trim strip
  rw [List.cons_append, List.dropWhile_cons_of_neg (by simp [hc]), ← List.cons_append,
    List.reverse_append, List.reverse_singleton, List.singleton_append,
    List.dropWhile_cons_of_neg (by simp [hd])]
  simp

end CloudEvents.Text
