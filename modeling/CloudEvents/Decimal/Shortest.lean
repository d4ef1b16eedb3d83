/-
  The shortest decimal of a binary floating-point number.

  A double is a whole number times a power of two, and every real number close enough to it is read
  back as that double: an interval around it, which holds its ends exactly when the whole number is
  even.  For one digit, two digits, and so on up to seventeen, the two neighbours of the double on the
  decimal grid of that many digits are tried; the first grid with a neighbour in the interval gives
  the digits, and of two such neighbours the nearer one.  All of it is exact arithmetic on naturals.
-/
import CloudEvents.Text.Integer

namespace CloudEvents.Decimal

/-- A positive number `significand · 10 ^ exponent`. -/
structure Scientific where
  significand : Nat
  exponent : Int
  deriving DecidableEq, Repr

/-- The magnitude of a finite double: `mantissa · 2 ^ exponent`. -/
structure Binary where
  mantissa : Nat
  exponent : Int
  /-- Whether the double below is only half as far away as the one above. -/
  edge : Bool
  deriving DecidableEq, Repr

/-- The magnitude that the bits of a finite double stand for. -/
def Binary.ofBits (bits : UInt64) : Binary :=
  let e := (bits >>> 52).toNat % 2048
  let f := bits.toNat % Nat.pow 2 52
  -- Numbers with the least exponent have no hidden digit; from a power of two the step down is half
  -- the step up, except between the two least exponents, where the steps are equal.
  if e = 0 then ⟨f, -1074, false⟩ else ⟨Nat.pow 2 52 + f, (e : Int) - 1075, f = 0 && e ≠ 1⟩

/-- Four times a magnitude and the ends of its interval, over a common denominator. -/
structure Interval where
  value : Nat
  low : Nat
  high : Nat
  denominator : Nat
  closed : Bool

/-- The interval of a magnitude. -/
def Binary.interval (b : Binary) : Interval :=
  -- The ends are half a step away, or a quarter at an edge: four times everything is whole.
  let up := Nat.pow 2 (b.exponent - 2).toNat
  let den := Nat.pow 2 (2 - b.exponent).toNat
  let m := 4 * b.mantissa
  ⟨m * up, (if b.edge then m - 1 else m - 2) * up, (m + 2) * up, den, b.mantissa % 2 = 0⟩

/-- Whether `c · 10 ^ p` lies in an interval. -/
def Interval.holds (i : Interval) (c : Nat) (p : Int) : Bool :=
  let x := c * Nat.pow 10 p.toNat * i.denominator
  let scale := Nat.pow 10 (-p).toNat
  if i.closed then i.low * scale ≤ x && x ≤ i.high * scale
  else i.low * scale < x && x < i.high * scale

/-- How many digits stand in front of the point; for a number below one, minus the number of zeros
behind it. -/
def Interval.magnitude (i : Interval) : Int :=
  if i.denominator ≤ i.value then ((Text.digits (i.value / i.denominator)).length : Int)
  else
    match (List.range 400).find? fun j => i.denominator ≤ i.value * Nat.pow 10 j with
    | some j => 1 - (j : Int)
    | none => -400

/-- The point of the grid of `n` digits that stands for the value, if one does. -/
def Interval.onGrid? (i : Interval) (n : Nat) : Option Scientific :=
  let p := i.magnitude - n
  let num := i.value * Nat.pow 10 (-p).toNat
  let den := i.denominator * Nat.pow 10 p.toNat
  let c := num / den
  let below := i.holds c p
  let above := i.holds (c + 1) p
  if below && above then
    -- The nearer one; of two as near, the even one.
    if 2 * (num % den) < den || (2 * (num % den) = den && c % 2 = 0) then some ⟨c, p⟩
    else some ⟨c + 1, p⟩
  else if below then some ⟨c, p⟩
  else if above then some ⟨c + 1, p⟩
  else none

/-- Moves the zeros at the end of the significand into the exponent. -/
def Scientific.trimZeros : (fuel : Nat) → Scientific → Scientific
  | 0, s => s
  | fuel + 1, s =>
    if s.significand % 10 = 0 then trimZeros fuel ⟨s.significand / 10, s.exponent + 1⟩ else s

/-- The shortest decimal of a positive finite double. -/
def shortest (bits : UInt64) : Scientific :=
  let i := (Binary.ofBits bits).interval
  match (List.range 17).findSome? fun n => i.onGrid? (n + 1) with
  | some s => s.trimZeros 20
  | none => ⟨0, 0⟩

example : shortest 0x3FF8000000000000 = ⟨15, -1⟩ := by decide +kernel
example : shortest 1 = ⟨5, -324⟩ := by decide +kernel
example : shortest 0x3FB999999999999A = ⟨1, -1⟩ := by decide +kernel
example : shortest 0x4340000000000000 = ⟨9007199254740992, 0⟩ := by decide +kernel

end CloudEvents.Decimal
