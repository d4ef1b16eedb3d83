/-
  The text of a stretch of time.

  A duration is named in the greatest unit of which it has at least one (seconds, milliseconds,
  microseconds, else nanoseconds), with as many decimals as it needs and no zeros at their end.
-/
import CloudEvents.Text.Integer

namespace CloudEvents

/-- A stretch of time. -/
structure Duration where
  nanos : Nat
  deriving DecidableEq, Repr

namespace Duration

/-- A count of microseconds. -/
def ofMicros (n : Nat) : Duration := ⟨n * 1000⟩

/-- Drops the zeros at the end of a run of digits. -/
def dropZeros (s : List Char) : List Char := (s.reverse.dropWhile (· == '0')).reverse

/-- A number of units that each have `10 ^ places` nanoseconds. -/
def inUnit (d : Duration) (places : Nat) (unit : String) : List Char :=
  let decimals := dropZeros (Text.fixed places (d.nanos % Nat.pow 10 places))
  Text.digits (d.nanos / Nat.pow 10 places) ++ (if decimals.isEmpty then [] else '.' :: decimals) ++
    unit.toList

/-- The text of a duration. -/
def toText (d : Duration) : String :=
  String.ofList <|
    if 1000000000 ≤ d.nanos then d.inUnit 9 "s"
    else if 1000000 ≤ d.nanos then d.inUnit 6 "ms"
    else if 1000 ≤ d.nanos then d.inUnit 3 "\u00b5s"
    else d.inUnit 0 "ns"

end Duration

example : (Duration.ofMicros 0).toText = "0ns" := by decide +kernel
example : (Duration.ofMicros 1500).toText = "1.5ms" := by decide +kernel

end CloudEvents
