/-
  Whole numbers as decimal text.

  Writing comes in two shapes: `digits` writes as many digits as the number has, `fixed` writes a
  set count with leading zeros (a date field, a fraction of a second).  Reading takes an optional
  sign and at least one digit, and refuses a value outside the range asked for, so that one reader
  serves every width of integer.
-/

namespace CloudEvents.Text

/-- The character of a digit. -/
def digit (n : Nat) : Char := Char.ofNat (48 + n)

/-- The value of a character that is a digit. -/
def digitValue (c : Char) : Nat := c.toNat - 48

/-- The decimal digits of a number, with no leading zero. -/
def digits (n : Nat) : List Char :=
  if n < 10 then [digit n] else digits (n / 10) ++ [digit (n % 10)]

/-- The last `width` decimal digits of a number, leading zeros included. -/
def fixed : (width : Nat) → Nat → List Char
  | 0, _ => []
  | w + 1, n => fixed w (n / 10) ++ [digit (n % 10)]

/-- Digits with leading zeros up to `width`; a longer number keeps all of its digits. -/
def padded (width n : Nat) : List Char :=
  if n < Nat.pow 10 width then fixed width n else digits n

/-- A whole number, with a minus sign if it is negative. -/
def integer (i : Int) : List Char :=
  if i < 0 then '-' :: digits i.natAbs else digits i.natAbs

/-- `integer` as a string. -/
def integerString (i : Int) : String := String.ofList (integer i)

/-- The value of a run of digits, in front of which stands the value `acc`. -/
def valueFrom (acc : Nat) (s : List Char) : Nat :=
  s.foldl (fun n c => 10 * n + digitValue c) acc

/-- The value of a text of digits alone, at least one. -/
def natural? (s : List Char) : Option Nat :=
  if s.isEmpty || !s.all Char.isDigit then none else some (valueFrom 0 s)

/-- A number with an optional sign, in the range from `lo` to `hi`.  A minus sign is read only where
the range has negative numbers, so an unsigned reader refuses `-0`. -/
def integer? (lo hi : Int) (s : List Char) : Option Int :=
  let value : Option Int :=
    match s with
    | '+' :: r => (natural? r).map Int.ofNat
    | '-' :: r => if lo < 0 then (natural? r).map fun n => -(n : Int) else none
    | r => (natural? r).map Int.ofNat
  value.filter fun i => lo ≤ i && i ≤ hi

/-- The range of signed 32-bit numbers. -/
def int32? (s : List Char) : Option Int32 :=
  (integer? (-2147483648) 2147483647 s).map Int32.ofInt

/-- The range of signed 64-bit numbers. -/
def int64? (s : List Char) : Option Int64 :=
  (integer? (-9223372036854775808) 9223372036854775807 s).map Int64.ofInt

theorem length_fixed (w n : Nat) : (fixed w n).length = w := by
  induction w generalizing n with
  | zero => rfl
  | succ w ih => simp [fixed, ih]

theorem isDigit_digit {n : Nat} (h : n < 10) : (digit n).isDigit = true := by
  have : n = 0 ∨ n = 1 ∨ n = 2 ∨ n = 3 ∨ n = 4 ∨ n = 5 ∨ n = 6 ∨ n = 7 ∨ n = 8 ∨ n = 9 := by omega
  rcases this with h | h | h | h | h | h | h | h | h | h <;> subst h <;> decide

theorem digitValue_digit {n : Nat} (h : n < 10) : digitValue (digit n) = n := by
  have : n = 0 ∨ n = 1 ∨ n = 2 ∨ n = 3 ∨ n = 4 ∨ n = 5 ∨ n = 6 ∨ n = 7 ∨ n = 8 ∨ n = 9 := by omega
  rcases this with h | h | h | h | h | h | h | h | h | h <;> subst h <;> decide

/-- Nothing but digits is written. -/
theorem isDigit_of_mem_fixed {w n : Nat} {c : Char} (h : c ∈ fixed w n) : c.isDigit = true := by
  induction w generalizing n with
  | zero => simp [fixed] at h
  | succ w ih =>
    rcases List.mem_append.1 h with h | h
    · exact ih h
    · rw [List.mem_singleton.1 h]
      exact isDigit_digit (Nat.mod_lt _ (by decide))

/-- The value of a text is found piece by piece. -/
theorem valueFrom_append (acc : Nat) (s t : List Char) :
    valueFrom acc (s ++ t) = valueFrom (valueFrom acc s) t := by
  simp [valueFrom]

/-- A fixed count of digits reads back, as long as the number has no more digits than that. -/
theorem valueFrom_fixed {w n : Nat} (h : n < Nat.pow 10 w) : valueFrom 0 (fixed w n) = n := by
  induction w generalizing n with
  | zero =>
    obtain rfl : n = 0 := Nat.lt_one_iff.1 h
    rfl
  | succ w ih =>
    have hn : n / 10 < Nat.pow 10 w := by
      have h : n < Nat.pow 10 w * 10 := h
      exact Nat.div_lt_of_lt_mul (by omega)
    have hm : n % 10 < 10 := Nat.mod_lt _ (by decide)
    rw [fixed, valueFrom_append, ih hn]
    simp only [valueFrom, List.foldl_cons, List.foldl_nil, digitValue_digit hm]
    omega

end CloudEvents.Text
