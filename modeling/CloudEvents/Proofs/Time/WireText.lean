/-
  The wire text of an instant is read back.

  The text has its fields at fixed places, so reading goes through it field by field
  (`readExact?_utcText`) and the rest is arithmetic: the calendar gives the day back, the clock gives
  the second of the day, and a second written as 60 gives the leap second.  Seven digits of fraction
  are all that is written, so an instant comes back as its `truncate`.

  Years outside 0 to 9999 have a sign and are not read; `InFourDigitYear` says of an instant that it is
  not in one of them.

  Main statements: `read?_wireText`, and for what is lost on the way `read?_wireText_isLastTick`.
-/
import CloudEvents.Proofs.Time.Calendar
import CloudEvents.Time.Instant

namespace CloudEvents.Instant

/-- An instant in a year that is written with four digits and no sign. -/
def InFourDigitYear (t : Instant) : Prop := 0 ≤ t.date.year ∧ t.date.year ≤ 9999

instance (t : Instant) : Decidable t.InFourDigitYear := inferInstanceAs (Decidable (_ ∧ _))

/-! ## The fields -/

/-- Digits written at a fixed width are read back, whatever stands behind them. -/
theorem takeNumber?_fixed {w v : Nat} (h : v < Nat.pow 10 w) (r : List Char) :
    takeNumber? w (Text.fixed w v ++ r) = some (v, r) := by
  have hall : (Text.fixed w v).all Char.isDigit = true :=
    List.all_eq_true.2 fun c hc => Text.isDigit_of_mem_fixed hc
  have ht : (Text.fixed w v ++ r).take w = Text.fixed w v := List.take_left' (Text.length_fixed w v)
  have hd : (Text.fixed w v ++ r).drop w = r := List.drop_left' (Text.length_fixed w v)
  simp only [takeNumber?, ht, hd, Text.length_fixed, hall, decide_true, Bool.and_self, if_true,
    Text.valueFrom_fixed h]

/-- Seven digits of a fraction are so many hundreds of nanoseconds. -/
theorem takeFraction?_ticks {k : Nat} (h : k < 10000000) :
    takeFraction? ('.' :: (Text.fixed 7 k ++ ['Z'])) = some (k * 100, ['Z']) := by
  have hdig : ∀ c ∈ Text.fixed 7 k, c.isDigit = true := fun c hc => Text.isDigit_of_mem_fixed hc
  have htw : (Text.fixed 7 k ++ ['Z']).takeWhile Char.isDigit = Text.fixed 7 k := by
    rw [List.takeWhile_append_of_pos hdig]
    simp
  have hdw : (Text.fixed 7 k ++ ['Z']).dropWhile Char.isDigit = ['Z'] := by
    rw [List.dropWhile_append_of_pos hdig]
    rfl
  have hne : (Text.fixed 7 k).isEmpty = false := by simp [Text.fixed]
  have htake : (Text.fixed 7 k).take 9 = Text.fixed 7 k :=
    List.take_of_length_le (by rw [Text.length_fixed]; decide)
  have hv : Text.valueFrom 0 (Text.fixed 7 k) = k := Text.valueFrom_fixed (Nat.lt_of_lt_of_eq h (by decide))
  have hscale : Nat.pow 10 (9 - (Text.fixed 7 k).length) = 100 := by rw [Text.length_fixed]
  simp only [takeFraction?, htw, hdw, hne, htake, hscale, hv, Bool.false_eq_true, if_false]

/-- A date and a time of day in UTC, with the seven digits of a fraction. -/
def utcText (year month day hour minute second ticks : Nat) : List Char :=
  Text.fixed 4 year ++ '-' :: (Text.fixed 2 month ++ '-' :: (Text.fixed 2 day ++
    'T' :: (Text.fixed 2 hour ++ ':' :: (Text.fixed 2 minute ++
      ':' :: (Text.fixed 2 second ++ '.' :: (Text.fixed 7 ticks ++ ['Z']))))))

/-- What a text in UTC is read as, whatever its fields hold. -/
theorem readExact?_utcText {year month day hour minute second ticks : Nat} (hy : year < 10000)
    (hmo : month < 100) (hd : day < 100) (hh : hour < 100) (hmi : minute < 100) (hs : second < 100)
    (hk : ticks < 10000000) :
    readExact? (utcText year month day hour minute second ticks) =
      if (Time.Date.mk year month day).exists ∧ hour ≤ 23 ∧ minute ≤ 59 ∧ second ≤ 60 then
        of? ((Time.Date.mk year month day).dayNumber * 86400 +
          (3600 * hour + 60 * minute + min second 59 : Nat) - 0)
          (if second = 60 then 1000000000 + ticks * 100 else ticks * 100)
      else none := by
  unfold readExact? utcText
  rw [takeNumber?_fixed (w := 4) hy]
  show (takeNumber? 2 _).bind _ = _
  rw [takeNumber?_fixed (w := 2) hmo]
  show (takeNumber? 2 _).bind _ = _
  rw [takeNumber?_fixed (w := 2) hd]
  show (takeNumber? 2 _).bind _ = _
  rw [takeNumber?_fixed (w := 2) hh]
  show (takeNumber? 2 _).bind _ = _
  rw [takeNumber?_fixed (w := 2) hmi]
  show (takeNumber? 2 _).bind _ = _
  rw [takeNumber?_fixed (w := 2) hs]
  show (takeFraction? _).bind _ = _
  rw [takeFraction?_ticks hk]
  rfl

/-! ## The whole text -/

/-- In a year of four digits the text has a fixed form, with the instant's own calendar values in it. -/
theorem write_ticks {t : Instant} (h : t.InFourDigitYear) :
    t.write .ticks = utcText t.date.year.toNat t.date.month t.date.day (t.secondOfDay / 3600)
      (t.secondOfDay / 60 % 60) t.writtenSecond (t.nanos % 1000000000 / 100) := by
  have hy : writeYear t.date.year = Text.fixed 4 t.date.year.toNat := if_pos h
  simp only [write, hy, utcText, Fraction.write, List.append_assoc, List.cons_append]

/-- What `write` puts down is read back, down to a hundred nanoseconds. -/
theorem readExact?_write {t : Instant} (h : t.InFourDigitYear) :
    readExact? (t.write .ticks) = some t.truncate := by
  have he : t.date.exists = true := Time.exists_ofDayNumber t.dayNumber
  have hn : t.date.dayNumber = t.seconds / 86400 := Time.dayNumber_ofDayNumber t.dayNumber
  have hm := Time.Date.month_le he
  have hd := Time.Date.day_le he
  have hs : (t.secondOfDay : Int) = t.seconds % 86400 := by unfold secondOfDay; omega
  have hw : t.writtenSecond = if t.nanos < 1000000000 then t.secondOfDay % 60 else 60 := rfl
  have hlt := t.nanos_lt
  have hleap := t.leap
  have hdate : Time.Date.mk (t.date.year.toNat : Nat) t.date.month t.date.day = t.date := by
    rw [Int.toNat_of_nonneg h.1]
  have hy := h.2
  rw [write_ticks h, readExact?_utcText (by omega) (by omega) (by omega) (by omega) (by omega)
    (by split at hw <;> omega) (by omega), hdate, hn,
    if_pos ⟨he, by omega, by omega, by split at hw <;> omega⟩]
  have hsec : t.seconds / 86400 * 86400 + ((3600 * (t.secondOfDay / 3600) +
      60 * (t.secondOfDay / 60 % 60) + min t.writtenSecond 59 : Nat) : Int) - 0 = t.seconds := by
    split at hw <;> omega
  have hnanos : (if t.writtenSecond = 60 then 1000000000 + t.nanos % 1000000000 / 100 * 100
      else t.nanos % 1000000000 / 100 * 100) = t.nanos / 100 * 100 := by
    split at hw <;> split <;> omega
  rw [hsec, hnanos, of?, dif_pos ⟨t.truncate.nanos_lt, t.truncate.leap⟩]
  rfl

/-- The text begins with a digit and ends with `Z`, so there is nothing to trim. -/
theorem trim_utcText (year month day hour minute second ticks : Nat) :
    Text.trim (utcText year month day hour minute second ticks) =
      utcText year month day hour minute second ticks := by
  have hdigit : Text.isBlank (Text.digit (year / 10 / 10 / 10 % 10)) = false :=
    Text.isBlank_eq_false_of_isDigit (Text.isDigit_digit (Nat.mod_lt _ (by decide)))
  have hz : Text.isBlank 'Z' = false := by decide
  have hends : utcText year month day hour minute second ticks =
      Text.digit (year / 10 / 10 / 10 % 10) :: ([Text.digit (year / 10 / 10 % 10),
        Text.digit (year / 10 % 10), Text.digit (year % 10)] ++ '-' :: (Text.fixed 2 month ++
        '-' :: (Text.fixed 2 day ++ 'T' :: (Text.fixed 2 hour ++ ':' :: (Text.fixed 2 minute ++
        ':' :: (Text.fixed 2 second ++ '.' :: Text.fixed 7 ticks)))))) ++ ['Z'] := by
    simp only [utcText, Text.fixed, List.nil_append, List.cons_append]
  rw [hends]
  exact Text.trim_eq_self hdigit hz

/-- **The wire text of an instant is read back**, as far as its seven digits of fraction go. -/
theorem read?_wireText {t : Instant} (h : t.InFourDigitYear) : read? t.wireText = some t.truncate := by
  unfold read? wireText toText
  rw [String.toList_ofList, write_ticks h, trim_utcText, ← write_ticks h]
  exact readExact?_write h

/-! ## Ticks -/

/-- The order of time: by the second, and within one second by the part of it.  So a leap second comes behind
the second that it prolongs. -/
instance : LE Instant := ⟨fun t u => t.seconds < u.seconds ∨ t.seconds = u.seconds ∧ t.nanos ≤ u.nanos⟩

/-- An instant is the last tick of another one: the same second, leap or not, and within it the last whole
multiple of a hundred nanoseconds that is not later. -/
structure IsLastTick (u t : Instant) : Prop where
  seconds : u.seconds = t.seconds
  leap : 1000000000 ≤ u.nanos ↔ 1000000000 ≤ t.nanos
  ticks : u.nanos % 100 = 0
  not_later : u ≤ t
  close : t.nanos < u.nanos + 100

/-- Truncation gives the last tick that is not later. -/
theorem isLastTick_truncate (t : Instant) : IsLastTick t.truncate t where
  seconds := rfl
  leap := by
    show 1000000000 ≤ t.nanos / 100 * 100 ↔ _
    omega
  ticks := Nat.mul_mod_left _ _
  not_later := .inr ⟨rfl, Nat.div_mul_le_self _ _⟩
  close := by
    show t.nanos < t.nanos / 100 * 100 + 100
    omega

/-- Seven digits do not tell an instant from its last tick. -/
theorem wireText_truncate (t : Instant) : t.truncate.wireText = t.wireText := by
  have hsecond : t.truncate.writtenSecond = t.writtenSecond := by
    have hlt : t.nanos / 100 * 100 < 1000000000 ↔ t.nanos < 1000000000 := by omega
    show (if t.nanos / 100 * 100 < 1000000000 then _ else _) = _
    simp only [hlt]
    rfl
  have hticks : t.nanos / 100 * 100 % 1000000000 / 100 = t.nanos % 1000000000 / 100 := by omega
  have hfraction : Fraction.ticks.write (t.truncate.nanos % 1000000000) =
      Fraction.ticks.write (t.nanos % 1000000000) := by
    show '.' :: Text.fixed 7 (t.nanos / 100 * 100 % 1000000000 / 100) = _
    rw [hticks]
    rfl
  unfold wireText toText write
  rw [hsecond, hfraction]
  rfl

/-- **What is lost of an instant on the wire.**  Its text is read as its last tick, which has that text too. -/
theorem read?_wireText_isLastTick {t : Instant} (h : t.InFourDigitYear) :
    ∃ u, read? t.wireText = some u ∧ IsLastTick u t ∧ u.wireText = t.wireText :=
  ⟨t.truncate, read?_wireText h, isLastTick_truncate t, wireText_truncate t⟩

/-- The last nanosecond of a leap second. -/
def endOfLeapSecond : Instant := ⟨1483228799, 1999999999, by decide, by decide⟩

/-- The last nanosecond of a leap second comes back as the last tick of that second. -/
theorem read?_wireText_endOfLeapSecond :
    endOfLeapSecond.InFourDigitYear ∧ endOfLeapSecond.wireText = "2016-12-31T23:59:60.9999999Z" ∧
      ∃ u, read? "2016-12-31T23:59:60.9999999Z" = some u ∧ IsLastTick u endOfLeapSecond ∧
        u.wireText = "2016-12-31T23:59:60.9999999Z" := by
  have hyear : endOfLeapSecond.InFourDigitYear := by decide +kernel
  have htext : endOfLeapSecond.wireText = "2016-12-31T23:59:60.9999999Z" := by decide +kernel
  refine ⟨hyear, htext, ?_⟩
  rw [← htext]
  exact read?_wireText_isLastTick hyear

end CloudEvents.Instant
