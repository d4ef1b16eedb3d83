/-
  Whole numbers are read as they are written.

  A number is written with as many digits as it has and a minus sign if it is negative.  The reader takes more than
  that (a plus sign, zeros in front), so writing what was read need not give the same text again; the other way
  round it does: `integer?_integer`, for every range that the number lies in.
-/
import CloudEvents.Text.Blank
import CloudEvents.Text.Integer

namespace CloudEvents.Text

/-! ## Digits -/

theorem isDigit_of_mem_digits {n : Nat} {c : Char} (h : c ∈ digits n) : c.isDigit = true := by
  fun_induction digits n with
  | case1 n hn =>
    rw [List.mem_singleton.1 h]
    exact isDigit_digit hn
  | case2 n _ ih =>
    rcases List.mem_append.1 h with h | h
    · exact ih h
    · rw [List.mem_singleton.1 h]
      exact isDigit_digit (Nat.mod_lt _ (by decide))

theorem digits_ne_nil (n : Nat) : digits n ≠ [] := by
  rw [digits]
  split <;> simp

/-- Digits have the value of the number that they were written for. -/
theorem valueFrom_digits (n : Nat) : valueFrom 0 (digits n) = n := by
  fun_induction digits n with
  | case1 n hn =>
    show 10 * 0 + digitValue (digit n) = n
    rw [digitValue_digit hn]
    omega
  | case2 n _ ih =>
    rw [valueFrom_append, ih]
    show 10 * (n / 10) + digitValue (digit (n % 10)) = n
    rw [digitValue_digit (Nat.mod_lt _ (by decide))]
    omega

/-- A natural number that was written is read back. -/
theorem natural?_digits (n : Nat) : natural? (digits n) = some n := by
  have hempty : (digits n).isEmpty = false := List.isEmpty_eq_false_iff.2 (digits_ne_nil n)
  have hall : (digits n).all Char.isDigit = true := List.all_eq_true.2 fun _ hc => isDigit_of_mem_digits hc
  rw [natural?, hempty, hall, valueFrom_digits]
  rfl

/-! ## Signs -/

/-- There is no point in a whole number. -/
theorem not_mem_integer (i : Int) : '.' ∉ integer i := by
  have hdigits : '.' ∉ digits i.natAbs := fun h => absurd (isDigit_of_mem_digits h) (by decide)
  unfold integer
  split
  · intro h
    rcases List.mem_cons.1 h with h | h
    · exact absurd h (by decide)
    · exact hdigits h
  · exact hdigits

/-- Nor is there white space. -/
theorem isBlank_of_mem_integer {i : Int} {c : Char} (h : c ∈ integer i) : isBlank c = false := by
  have hdigits : c ∈ digits i.natAbs → isBlank c = false := fun h =>
    isBlank_eq_false_of_isDigit (isDigit_of_mem_digits h)
  unfold integer at h
  split at h
  · rcases List.mem_cons.1 h with rfl | h
    · decide
    · exact hdigits h
  · exact hdigits h

/-- **A whole number is read as it is written**, in every range that it lies in. -/
theorem integer?_integer {lo hi i : Int} (hlo : lo ≤ i) (hhi : i ≤ hi) : integer? lo hi (integer i) = some i := by
  have hrange : (some i).filter (fun i => lo ≤ i && i ≤ hi) = some i := by simp [hlo, hhi]
  unfold integer
  split
  · rename_i hneg
    -- The range reaches below zero, so a minus sign is read.
    have hread : ((natural? (digits i.natAbs)).map fun n => -(n : Int)) = some i := by
      rw [natural?_digits]
      exact congrArg some (show -(i.natAbs : Int) = i by omega)
    rw [integer?, if_pos (Int.lt_of_le_of_lt hlo hneg), hread, hrange]
  · have hread : (natural? (digits i.natAbs)).map Int.ofNat = some i := by
      rw [natural?_digits]
      exact congrArg some (show (i.natAbs : Int) = i by omega)
    unfold integer?
    split
    · rename_i r hr
      exact absurd (isDigit_of_mem_digits (hr ▸ List.mem_cons_self)) (by decide)
    · rename_i r hr
      exact absurd (isDigit_of_mem_digits (hr ▸ List.mem_cons_self)) (by decide)
    · rw [hread, hrange]

theorem int32?_integerString (i : Int32) : int32? (integerString i.toInt).toList = some i := by
  have hlo : -2147483648 ≤ i.toInt := i.le_toInt
  have hhi : i.toInt ≤ 2147483647 := Int.le_of_lt_add_one i.toInt_lt
  rw [int32?, integerString, String.toList_ofList, integer?_integer hlo hhi, Option.map_some, Int32.ofInt_toInt]

theorem int64?_integerString (i : Int64) : int64? (integerString i.toInt).toList = some i := by
  have hlo : -9223372036854775808 ≤ i.toInt := i.le_toInt
  have hhi : i.toInt ≤ 9223372036854775807 := Int.le_of_lt_add_one i.toInt_lt
  rw [int64?, integerString, String.toList_ofList, integer?_integer hlo hhi, Option.map_some, Int64.ofInt_toInt]

end CloudEvents.Text
