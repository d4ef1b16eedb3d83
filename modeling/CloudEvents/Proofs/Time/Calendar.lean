/-
  Dates and day numbers are inverse to each other.

  `Date.ofDayNumber` finds the year of an era by one division: it takes the leap days out of the day
  of the era (`evenDay`) and divides by 365.  That this is the right year is the one fact of the file
  with an idea in it.  `evenDay` never falls, so it is enough to look at the first and the last day of
  each of the four hundred years (`evenDay_yearStart`), and every day lies between two such days
  (`exists_between`).  The month is a plain linear bound.

  Main statements: `dayNumber_ofDayNumber`, a day has a date and the date has that day number, and
  `exists_ofDayNumber`, it is a date that the calendar has.
-/
import CloudEvents.Time.Calendar
import Mathlib.Tactic.IntervalCases

namespace CloudEvents.Time

/-! ## The year of a day -/

/-- The days of an era without the leap days before them, so that every year has 365. -/
def evenDay (d : Nat) : Nat := d - d / 1460 + d / 36524 - d / 146096

/-- The year of an era that a day of it lies in. -/
def yearOfDay (d : Nat) : Nat := evenDay d / 365

/-- The first day of a year of an era.  The last year of an era is long, which `daysBeforeYear` does not
count: the era ends one day later than that. -/
def yearStart (y : Nat) : Nat := if y = 400 then 146097 else daysBeforeYear y

theorem evenDay_le_succ (d : Nat) : evenDay d ≤ evenDay (d + 1) := by
  unfold evenDay
  -- The two counts of centuries only compare once one is written as a part of the other.
  have h4 : ∀ x : Nat, x / 146096 = x / 36524 / 4 := fun x => by rw [Nat.div_div_eq_div_mul]
  rw [h4, h4]
  omega

theorem evenDay_mono {d e : Nat} (h : d ≤ e) : evenDay d ≤ evenDay e := by
  induction h with
  | refl => exact Nat.le_refl _
  | step _ ih => exact Nat.le_trans ih (evenDay_le_succ _)

/-- The first and the last day of a year. -/
theorem evenDay_yearStart : ∀ y < 400,
    365 * y ≤ evenDay (yearStart y) ∧ evenDay (yearStart (y + 1) - 1) < 365 * (y + 1) := by
  decide +kernel

/-- A number between the first and the last value of a sequence lies between two that follow each
other. -/
theorem exists_between (f : Nat → Nat) {n d : Nat} (h0 : f 0 ≤ d) (hn : d < f n) :
    ∃ y < n, f y ≤ d ∧ d < f (y + 1) := by
  induction n with
  | zero => omega
  | succ n ih =>
    rcases Nat.lt_or_ge d (f n) with h | h
    · obtain ⟨y, hy, hb⟩ := ih h
      exact ⟨y, by omega, hb⟩
    · exact ⟨n, by omega, h, hn⟩

/-- The year found for a day of the era is the one that starts on or before it and ends after it. -/
theorem yearOfDay_spec {d : Nat} (h : d < 146097) :
    yearOfDay d < 400 ∧ yearStart (yearOfDay d) ≤ d ∧ d < yearStart (yearOfDay d + 1) := by
  obtain ⟨y, hy, hl, hu⟩ := exists_between yearStart (n := 400) (d := d) (Nat.zero_le _) h
  obtain ⟨h1, h2⟩ := evenDay_yearStart y hy
  have h3 := evenDay_mono hl
  have h4 : evenDay d ≤ evenDay (yearStart (y + 1) - 1) := evenDay_mono (by omega)
  have hyear : yearOfDay d = y := by
    unfold yearOfDay
    omega
  rw [hyear]
  exact ⟨hy, hl, hu⟩

/-- A year has 366 days if it is a leap year and 365 otherwise. -/
theorem yearStart_succ {y : Nat} (h : y < 400) :
    yearStart (y + 1) = daysBeforeYear y + if isLeapYear (y + 1) then 366 else 365 := by
  revert h
  revert y
  decide +kernel

/-- Leap years repeat with the eras. -/
theorem isLeapYear_add_era (y e : Int) : isLeapYear (y + e * 400) = isLeapYear y := by
  unfold isLeapYear
  have h1 : (y + e * 400) % 4 = y % 4 := by omega
  have h2 : (y + e * 400) % 100 = y % 100 := by omega
  have h3 : (y + e * 400) % 400 = y % 400 := by omega
  rw [h1, h2, h3]

/-! ## The month of a day -/

/-- The month, from March on, that a day of a year lies in. -/
def monthOfDay (d : Nat) : Nat := (5 * d + 2) / 153

/-- The month found for a day of the year is the one that starts on or before it and ends after it. -/
theorem monthOfDay_spec {d : Nat} (h : d < 366) :
    monthOfDay d < 12 ∧ daysBeforeMonth (monthOfDay d) ≤ d ∧
      d < daysBeforeMonth (monthOfDay d + 1) := by
  unfold monthOfDay daysBeforeMonth
  omega

/-- The calendar's own number of a month that is counted from March on. -/
def civilMonth (m : Nat) : Nat := if m < 10 then m + 3 else m - 9

/-- No month is longer than the calendar has it; the last one depends on the year that begins in its
course. -/
theorem succ_le_daysInMonth {m day : Nat} (year : Int) (hm : m < 12)
    (hd : daysBeforeMonth m + day < daysBeforeMonth (m + 1))
    (hy : civilMonth m ≤ 2 → daysBeforeMonth m + day < if isLeapYear year then 366 else 365) :
    day + 1 ≤ daysInMonth year (civilMonth m) := by
  unfold daysBeforeMonth at hd hy
  cases hleap : isLeapYear year <;> rw [hleap] at hy <;>
    interval_cases m <;> simp [civilMonth, daysInMonth, hleap] at hy ⊢ <;> omega

/-! ## Dates -/

/-- The date of an era, a year of it, a month from March on and a day of that month, all counted from
zero. -/
def dateOf (era : Int) (y m day : Nat) : Date :=
  ⟨if civilMonth m ≤ 2 then (y : Int) + era * 400 + 1 else (y : Int) + era * 400, civilMonth m, day + 1⟩

theorem ofDayNumber_eq (n : Int) :
    Date.ofDayNumber n =
      (fun (d : Nat) => (fun (r : Nat) =>
        dateOf ((n + 719468) / eraDays) (yearOfDay d) (monthOfDay r) (r - daysBeforeMonth (monthOfDay r)))
          (d - daysBeforeYear (yearOfDay d))) ((n + 719468) % eraDays).toNat :=
  rfl

/-- **The parts of a date**, which between them make up its day number. -/
theorem ofDayNumber_parts (n : Int) : ∃ (era : Int) (y m day : Nat),
    y < 400 ∧ m < 12 ∧ daysBeforeMonth m + day < daysBeforeMonth (m + 1) ∧
    daysBeforeMonth m + day < (if isLeapYear (y + 1) then 366 else 365) ∧
    n + 719468 = era * eraDays + (daysBeforeYear y + daysBeforeMonth m + day : Nat) ∧
    Date.ofDayNumber n = dateOf era y m day := by
  rw [ofDayNumber_eq]
  have hd : ((n + 719468) % eraDays).toNat < 146097 := by unfold eraDays; omega
  have hn : n + 719468 = (n + 719468) / eraDays * eraDays + ((n + 719468) % eraDays).toNat := by
    unfold eraDays; omega
  generalize ((n + 719468) % eraDays).toNat = d at hd hn ⊢
  generalize (n + 719468) / eraDays = era at hn ⊢
  obtain ⟨hy, hyl, hyu⟩ := yearOfDay_spec hd
  rw [yearStart_succ hy] at hyu
  rw [yearStart, if_neg (Nat.ne_of_lt hy)] at hyl
  obtain ⟨r, hr⟩ := Nat.exists_eq_add_of_le hyl
  have hrl : r < if isLeapYear (yearOfDay d + 1) then 366 else 365 := by omega
  obtain ⟨hm, hml, hmu⟩ := monthOfDay_spec (d := r) (by split at hrl <;> omega)
  have hdr : d - daysBeforeYear (yearOfDay d) = r := by omega
  obtain ⟨day, hday⟩ := Nat.exists_eq_add_of_le hml
  refine ⟨era, yearOfDay d, monthOfDay r, day, hy, hm, by omega, by omega, by omega, ?_⟩
  simp only [hdr]
  congr 1
  omega

/-- **A day has a date, and the date has that day number.** -/
theorem dayNumber_ofDayNumber (n : Int) : (Date.ofDayNumber n).dayNumber = n := by
  obtain ⟨era, y, m, day, hy, hm, -, -, hn, he⟩ := ofDayNumber_parts n
  have hyear : (if civilMonth m ≤ 2 then (dateOf era y m day).year - 1 else (dateOf era y m day).year) =
      (y : Int) + era * 400 := by
    unfold dateOf
    split <;> simp_all
  have hmonth : (if civilMonth m ≤ 2 then civilMonth m + 9 else civilMonth m - 3) = m := by
    unfold civilMonth
    split <;> split <;> omega
  have h1 : ((y : Int) + era * 400) / 400 = era := by omega
  have h2 : (((y : Int) + era * 400) % 400).toNat = y := by omega
  rw [he]
  unfold Date.dayNumber
  simp only [show (dateOf era y m day).month = civilMonth m from rfl,
    show (dateOf era y m day).day = day + 1 from rfl, hyear, hmonth, h1, h2]
  omega

/-- **The date of a day number is one that the calendar has.** -/
theorem exists_ofDayNumber (n : Int) : (Date.ofDayNumber n).exists = true := by
  obtain ⟨era, y, m, day, hy, hm, hd, hl, -, he⟩ := ofDayNumber_parts n
  rw [he]
  unfold Date.exists
  rw [Bool.and_eq_true, decide_eq_true_eq, decide_eq_true_eq]
  refine ⟨Nat.le_add_left 1 day, succ_le_daysInMonth _ hm hd fun hc => ?_⟩
  rw [dateOf, if_pos hc, show (y : Int) + era * 400 + 1 = (y + 1 : Int) + era * 400 by omega,
    isLeapYear_add_era]
  exact hl

/-- A year has twelve months. -/
theorem Date.month_le {d : Date} (h : d.exists = true) : d.month ≤ 12 := by
  unfold Date.exists at h
  rw [Bool.and_eq_true, decide_eq_true_eq, decide_eq_true_eq] at h
  by_contra hm
  have h0 : daysInMonth d.year d.month = 0 := by
    unfold daysInMonth
    split <;> omega
  omega

/-- No month has more than thirty-one days. -/
theorem Date.day_le {d : Date} (h : d.exists = true) : d.day ≤ 31 := by
  unfold Date.exists at h
  rw [Bool.and_eq_true, decide_eq_true_eq, decide_eq_true_eq] at h
  have h31 : daysInMonth d.year d.month ≤ 31 := by
    unfold daysInMonth
    split <;> first | omega | (split <;> omega)
  exact Nat.le_trans h.2 h31

end CloudEvents.Time
