/-
  Instants, and their text in UTC.

  An instant is a count of seconds since the start of 1970 and a part of a second in nanoseconds.  A
  leap second has no count of its own: it is written as the second before it with a part of one second
  or more, and that can only stand at the end of a minute.

  The text is a date and a time of day with `Z` behind it.  What differs between its uses is the
  fraction: the wire format has exactly seven digits, a document has as many groups of three as are
  needed, and a log of instants nine.  Years of four digits stand as they are; any other year gets a
  sign.
-/
import CloudEvents.Time.Calendar
import CloudEvents.Text.Integer
import CloudEvents.Text.Blank

namespace CloudEvents

/-- A point in time, with nanoseconds and leap seconds. -/
structure Instant where
  seconds : Int
  nanos : Nat
  nanos_lt : nanos < 2000000000
  /-- Only at the end of a minute does a second run on. -/
  leap : 1000000000 ≤ nanos → seconds % 60 = 59
  deriving DecidableEq, Repr

namespace Instant

/-- The start of 1970. -/
def epoch : Instant := ⟨0, 0, by decide, by decide⟩

instance : Inhabited Instant := ⟨epoch⟩

/-- The instant of a count of seconds and a part, if there is one. -/
def of? (seconds : Int) (nanos : Nat) : Option Instant :=
  if h : nanos < 2000000000 ∧ (1000000000 ≤ nanos → seconds % 60 = 59) then
    some ⟨seconds, nanos, h.1, h.2⟩
  else none

/-- The instant with its part of a second cut to whole multiples of a hundred nanoseconds. -/
def truncate (t : Instant) : Instant :=
  ⟨t.seconds, t.nanos / 100 * 100, by have := t.nanos_lt; omega, fun h => t.leap (by omega)⟩

/-! ## Text -/

/-- How many digits the fraction of a second is written with. -/
inductive Fraction where
  /-- Seven, always. -/
  | ticks
  /-- Nine, always. -/
  | nanos
  /-- None, three, six or nine, as many as are needed to lose nothing. -/
  | fewest
  deriving DecidableEq, Repr

/-- The text of a fraction of less than a second. -/
def Fraction.write (f : Fraction) (nanos : Nat) : List Char :=
  match f with
  | .ticks => '.' :: Text.fixed 7 (nanos / 100)
  | .nanos => '.' :: Text.fixed 9 nanos
  | .fewest =>
    if nanos = 0 then []
    else if nanos % 1000000 = 0 then '.' :: Text.fixed 3 (nanos / 1000000)
    else if nanos % 1000 = 0 then '.' :: Text.fixed 6 (nanos / 1000)
    else '.' :: Text.fixed 9 nanos

/-- A year: four digits, or a sign and at least four. -/
def writeYear (y : Int) : List Char :=
  if 0 ≤ y ∧ y ≤ 9999 then Text.fixed 4 y.toNat
  else (if y < 0 then '-' else '+') :: Text.padded 4 y.natAbs

/-- The day an instant lies in. -/
def dayNumber (t : Instant) : Int := t.seconds / 86400

/-- The date of an instant. -/
def date (t : Instant) : Time.Date := .ofDayNumber t.dayNumber

/-- The seconds since midnight. -/
def secondOfDay (t : Instant) : Nat := (t.seconds % 86400).toNat

/-- The second of the minute as written: 60 in a leap second. -/
def writtenSecond (t : Instant) : Nat :=
  if t.nanos < 1000000000 then t.secondOfDay % 60 else 60

/-- The text of an instant. -/
def write (f : Fraction) (t : Instant) : List Char :=
  let d := t.date
  let s := t.secondOfDay
  writeYear d.year ++ '-' :: Text.fixed 2 d.month ++ '-' :: Text.fixed 2 d.day ++
    'T' :: Text.fixed 2 (s / 3600) ++ ':' :: Text.fixed 2 (s / 60 % 60) ++
    ':' :: Text.fixed 2 t.writtenSecond ++ f.write (t.nanos % 1000000000) ++ ['Z']

/-- The text of an instant, as a string. -/
def toText (t : Instant) (f : Fraction) : String := String.ofList (t.write f)

/-- The wire format: seven digits of fraction, which is all that survives a trip. -/
def wireText (t : Instant) : String := t.toText .ticks

/-! ## Reading -/

/-- A decimal number of exactly `n` digits at the start of a text. -/
def takeNumber? (n : Nat) (s : List Char) : Option (Nat × List Char) :=
  let ds := s.take n
  if ds.length = n && ds.all Char.isDigit then some (Text.valueFrom 0 ds, s.drop n) else none

/-- A set character at the start of a text. -/
def takeChar? (c : Char) (s : List Char) : Option (List Char) :=
  match s with
  | x :: r => if x = c then some r else none
  | [] => none

/-- A fraction of a second, if a point stands here: at least one digit, of which nine count. -/
def takeFraction? (s : List Char) : Option (Nat × List Char) :=
  match s with
  | '.' :: r =>
    let ds := r.takeWhile Char.isDigit
    if ds.isEmpty then none
    else
      let used := ds.take 9
      some (Text.valueFrom 0 used * Nat.pow 10 (9 - used.length), r.dropWhile Char.isDigit)
  | r => some (0, r)

/-- The minus sign that may stand for the hyphen of an offset. -/
def minusSign : Char := Char.ofNat 0x2212

/-- The offset from UTC that ends a text, in seconds: `Z`, or hours and minutes with a sign. -/
def offset? (s : List Char) : Option Int :=
  let clock (sign : Int) (r : List Char) : Option Int := do
    let (h, r) ← takeNumber? 2 r
    let r ← takeChar? ':' r
    let (m, r) ← takeNumber? 2 r
    if r.isEmpty ∧ h ≤ 23 ∧ m ≤ 59 then some (sign * (3600 * h + 60 * m : Nat)) else none
  match s with
  | c :: r =>
    if c = 'Z' ∨ c = 'z' then if r.isEmpty then some 0 else none
    else if c = '+' then clock 1 r
    else if c = '-' ∨ c = minusSign then clock (-1) r
    else none
  | [] => none

/-- The character between a date and a time of day. -/
def isDateTimeSeparator (c : Char) : Bool := c == 'T' || c == 't' || c == ' '

/-- The instant of a text without blanks around it. -/
def readExact? (s : List Char) : Option Instant := do
  let (year, s) ← takeNumber? 4 s
  let s ← takeChar? '-' s
  let (month, s) ← takeNumber? 2 s
  let s ← takeChar? '-' s
  let (day, s) ← takeNumber? 2 s
  let s ← match s with
    | c :: r => if isDateTimeSeparator c then some r else none
    | [] => none
  let (hour, s) ← takeNumber? 2 s
  let s ← takeChar? ':' s
  let (minute, s) ← takeNumber? 2 s
  let s ← takeChar? ':' s
  let (second, s) ← takeNumber? 2 s
  let (nanos, s) ← takeFraction? s
  let offset ← offset? s
  let date : Time.Date := ⟨year, month, day⟩
  if date.exists ∧ hour ≤ 23 ∧ minute ≤ 59 ∧ second ≤ 60 then
    let clock : Nat := 3600 * hour + 60 * minute + min second 59
    of? (date.dayNumber * 86400 + clock - offset) (if second = 60 then 1000000000 + nanos else nanos)
  else none

/-- The instant of a text; blanks around it do not count. -/
def read? (s : String) : Option Instant := readExact? (Text.trim s.toList)

end Instant

example : ((Instant.of? 1483228799 1500000000).map fun t => t.write .ticks) =
    some "2016-12-31T23:59:60.5000000Z".toList := by decide +kernel

example : (Instant.readExact? "0000-01-01T00:00:00+01:00".toList).map (·.seconds) =
    some (-62167222800) := by decide +kernel

end CloudEvents
