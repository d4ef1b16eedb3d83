/-
  JSON numbers as values.

  A number without fraction and exponent that fits 64 bits is a whole number; every other one is a
  double.  A double is read in two roundings: the digits are gathered into a 64-bit significand, in
  which digits that no longer fit are dropped, and that is multiplied or divided by a power of ten.
  Minus zero is a double, because no whole number is negative and zero.  A number past the greatest
  double is refused.

  A double is written with the fewest digits that read back: positionally from `0.00001` up to
  sixteen digits in front of the point, always with a point, and with an exponent beyond that, which
  has a sign always.
-/
import CloudEvents.Json.Numeral
import CloudEvents.Json.Layout
import CloudEvents.Decimal.Shortest

namespace CloudEvents.Json

/-- The value of a number. -/
inductive Number where
  | whole (i : Int)
  /-- A finite double, by its bits. -/
  | double (bits : UInt64)
  deriving DecidableEq, Repr

/-! ## Reading -/

/-- The greatest significand. -/
def significandLimit : Nat := Nat.pow 2 64

/-- Gathers digits as long as the significand has room; all that remains of the others is how many
they are. -/
def gather (significand : Nat) : List Char → Nat × Nat
  | [] => (significand, 0)
  | c :: r =>
    let next := significand * 10 + Text.digitValue c
    if next < significandLimit then gather next r else (significand, r.length + 1)

/-- The double nearest to a power of ten. -/
def powerOfTen (e : Nat) : Float := Float.ofScientific 1 false e

/-- Divides by a power of ten, in steps that each stay in range; three steps reach zero from every
significand. -/
def scaleDown : (steps : Nat) → Float → Nat → Float
  | 0, f, _ => f
  | steps + 1, f, e =>
    if e ≤ 308 then f / powerOfTen e
    else if f == 0 then f
    else scaleDown steps (f / powerOfTen 308) (e - 308)

/-- The double of a significand and a power of ten. -/
def scaled? (significand : Nat) (e : Int) : Option Float :=
  let f := (UInt64.ofNat significand).toFloat
  if f == 0 then some f
  else if e < 0 then some (scaleDown 4 f e.natAbs)
  else if e ≤ 308 then
    let g := f * powerOfTen e.toNat
    if g.isInf then none else some g
  else none

/-- The greatest exponent that is counted; one past it is as good as without end. -/
def exponentLimit : Nat := 2147483647

/-- The magnitude of a number as a double. -/
def Numeral.double? (n : Numeral) : Option Float :=
  let (s, dropped) := gather 0 n.whole
  let (s', rest) := gather s n.fraction
  -- A digit in front of the point that was dropped moves it right, one behind it that was taken, left.
  let e : Int := (dropped : Int) - ((n.fraction.length : Int) - (rest : Int))
  match n.exponent with
  | none => scaled? s' e
  | some exponent =>
    let x := Text.valueFrom 0 exponent.digits
    if x > exponentLimit then
      if s' = 0 || exponent.negative then some 0 else none
    else scaled? s' (if exponent.negative then e - (x : Int) else e + (x : Int))

/-- The value of a number. -/
def Numeral.number? (n : Numeral) : Option Number :=
  let double := n.double?.map fun f => Number.double (if n.negative then (-f) else f).toBits
  if n.fraction.isEmpty && n.exponent.isNone then
    let v := Text.valueFrom 0 n.whole
    if n.negative then
      if 0 < v && v ≤ Nat.pow 2 63 then some (.whole (-(v : Int))) else double
    else if v < Nat.pow 2 64 then some (.whole v)
    else double
  else double

/-! ## Writing -/

/-- A whole number that has a sign in any case. -/
def signedInteger (i : Int) : List Char := if i < 0 then Text.integer i else '+' :: Text.integer i

/-- The text of `significand · 10 ^ exponent`. -/
def writeScientific (s : Decimal.Scientific) : List Char :=
  let ds := Text.digits s.significand
  let point : Int := (ds.length : Int) + s.exponent
  if 0 ≤ s.exponent ∧ point ≤ 16 then ds ++ List.replicate s.exponent.toNat '0' ++ ['.', '0']
  else if 0 < point ∧ point ≤ 16 then ds.take point.toNat ++ '.' :: ds.drop point.toNat
  else if -5 < point ∧ point ≤ 0 then '0' :: '.' :: List.replicate (-point).toNat '0' ++ ds
  else
    let mantissa :=
      match ds with
      | d :: d' :: r => d :: '.' :: d' :: r
      | ds => ds
    mantissa ++ 'e' :: signedInteger (point - 1)

/-- The text of a finite double. -/
def writeDouble (bits : UInt64) : List Char :=
  let sign := if bits.toNat < Nat.pow 2 63 then [] else ['-']
  let magnitude := UInt64.ofNat (bits.toNat % Nat.pow 2 63)
  if magnitude = 0 then sign ++ ['0', '.', '0']
  else sign ++ writeScientific (Decimal.shortest magnitude)

/-- The text of a number. -/
def Number.write : Number → List Char
  | .whole i => Text.integer i
  | .double bits => writeDouble bits

end CloudEvents.Json
