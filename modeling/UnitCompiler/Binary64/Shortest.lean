import UnitCompiler.Binary64

/-!
# Shortest decimal digits

A double is written with the fewest digits that read back as the same double, and among those with
the digits nearest to its exact value. The reals that read back form an interval whose ends belong
to it exactly when the significand is even. All quantities are scaled to natural numbers: the value
is `center / scale`, the ends of the interval are `low / scale` and `high / scale`.
-/

namespace UnitCompiler.Binary64

structure Interval where
  low : Nat
  center : Nat
  high : Nat
  scale : Nat
  closed : Bool

/-- The reals that round to `significand * 2 ^ (exponent - 1074)`. Below a power of two the doubles
lie twice as close, so the lower end is nearer there. -/
def Interval.around (significand exponent : Nat) : Interval :=
  let below := if significand = hiddenBit ∧ 0 < exponent then 1 else 2
  { low := (4 * significand - below) <<< exponent
    center := (4 * significand) <<< exponent
    high := (4 * significand + 2) <<< exponent
    scale := 1 <<< 1076
    closed := significand % 2 = 0 }

/-- Whether `num / den` reads back. -/
def Interval.holds (i : Interval) (num den : Nat) : Bool :=
  if i.closed then i.low * den ≤ num * i.scale && num * i.scale ≤ i.high * den
  else i.low * den < num * i.scale && num * i.scale < i.high * den

/-- Decimal digits `coefficient` times `10 ^ exponent`. -/
structure Decimal where
  coefficient : Nat
  exponent : Int

def Decimal.ratio (d : Decimal) : Nat × Nat :=
  if 0 ≤ d.exponent then (d.coefficient * powerOfTen d.exponent.toNat, 1)
  else (d.coefficient, powerOfTen (-d.exponent).toNat)

def Interval.admits (i : Interval) (d : Decimal) : Bool :=
  i.holds d.ratio.1 d.ratio.2

/-- The distance from the center, over the common denominator `den * scale`. -/
def Interval.distance (i : Interval) (d : Decimal) : Nat × Nat :=
  let (num, den) := d.ratio
  let a := num * i.scale
  let b := i.center * den
  (if a ≤ b then b - a else a - b, den)

/-- The decimal exponent of the leading digit of `num / den`: the first of the candidates, counted
down from `start`, at which the value is not below that power of ten. -/
def leadingExponent (num den : Nat) : Nat → Int → Int
  | 0, start => start
  | fuel + 1, start =>
    let reached := if 0 ≤ start then den * powerOfTen start.toNat ≤ num
      else den ≤ num * powerOfTen (-start).toNat
    if reached then start else leadingExponent num den fuel (start - 1)

/-- The largest multiple of `10 ^ exponent` not above the center, as a coefficient. -/
def Interval.floorAt (i : Interval) (exponent : Int) : Nat :=
  if 0 ≤ exponent then i.center / (i.scale * powerOfTen exponent.toNat)
  else i.center * powerOfTen (-exponent).toNat / i.scale

/-- The neighbour of the center on the grid of `10 ^ exponent` that reads back, the nearer of two. -/
def Interval.pick (i : Interval) (exponent : Int) : Option Decimal :=
  let below : Decimal := ⟨i.floorAt exponent, exponent⟩
  let above : Decimal := ⟨i.floorAt exponent + 1, exponent⟩
  match i.admits below, i.admits above with
  | true, true =>
    let d := (i.distance below).1
    let u := (i.distance above).1
    if d < u then some below
    else if u < d then some above
    else if below.coefficient % 2 = 0 then some below else some above
  | true, false => some below
  | false, true => some above
  | false, false => none

/-- The first grid, from coarse to fine, with a neighbour that reads back. -/
def Interval.shortest (i : Interval) : Nat → Int → Decimal
  | 0, exponent => ⟨i.floorAt exponent, exponent⟩
  | fuel + 1, exponent =>
    match i.pick exponent with
    | some decimal => decimal
    | none => i.shortest fuel (exponent - 1)

/-- The digits of a natural number, most significant first. -/
def decimalDigits (n : Nat) : List Nat :=
  (Nat.toDigits 10 n).map fun c => c.toNat - '0'.toNat

/-- Digits without trailing zeros and the exponent of the first of them. -/
structure Digits where
  digits : List Nat
  exponent : Int

def dropTrailingZeros (digits : List Nat) : List Nat :=
  (digits.reverse.dropWhile (· = 0)).reverse

def Decimal.normal (d : Decimal) : Digits :=
  let digits := decimalDigits d.coefficient
  ⟨dropTrailingZeros digits, d.exponent + digits.length - 1⟩

/-- The shortest digits of a finite nonzero magnitude. -/
def shortestDigits (significand exponent : Nat) : Digits :=
  let i := Interval.around significand exponent
  let leading := leadingExponent i.center i.scale 640 309
  (i.shortest 18 leading).normal

end UnitCompiler.Binary64
