import UnitCompiler.Binary64.Shortest
import UnitCompiler.Json

/-!
# Numbers in JSON

Integers are written digit by digit. A decimal is written with its shortest digits, and read by
scaling an integer significand: digits past sixty-four bits are dropped, the significand becomes a
double, and one multiplication or division by a power of ten follows, each rounded on its own.
-/

namespace UnitCompiler.Json.Number

open Binary64 (decimalDigits digitsValue powerOfTen)

def ofInt (value : Int) : Number :=
  { negative := decide (value < 0), whole := decimalDigits value.natAbs }

def ofNat (value : Nat) : Number :=
  { whole := decimalDigits value }

/-- A sixty-four bit integer. Minus zero and digits with a point or an exponent are decimals. -/
def toInt64? (n : Number) : Option Int64 :=
  let magnitude := digitsValue n.whole
  if !n.fraction.isEmpty || n.exponent.isSome then none
  else if n.negative then
    if 0 < magnitude ∧ magnitude ≤ 0x8000000000000000 then some (Int64.ofInt (-magnitude)) else none
  else if magnitude < 0x8000000000000000 then some (Int64.ofNat magnitude) else none

/-- A significand and the power of ten it is scaled by. -/
structure Scaled where
  significand : Nat
  exponent : Int

def fits (significand digit : Nat) : Bool :=
  significand * 10 + digit < 0x10000000000000000

/-- Takes digits before the point; from the first one that does not fit, they only scale. -/
def Scaled.whole (s : Scaled) : List Nat → Scaled
  | [] => s
  | digit :: rest =>
    if fits s.significand digit then
      Scaled.whole { s with significand := s.significand * 10 + digit } rest
    else { s with exponent := s.exponent + (rest.length + 1) }

/-- Takes digits after the point, up to the first one that does not fit. -/
def Scaled.fraction (s : Scaled) : List Nat → Scaled
  | [] => s
  | digit :: rest =>
    if fits s.significand digit then
      Scaled.fraction ⟨s.significand * 10 + digit, s.exponent - 1⟩ rest
    else s

def Exponent.value (e : Exponent) : Int :=
  match e.sign with
  | .minus => -(digitsValue e.digits : Int)
  | _ => digitsValue e.digits

def scaled (n : Number) : Scaled :=
  let s := ((Scaled.mk 0 0).whole n.whole).fraction n.fraction
  match n.exponent with
  | none => s
  | some e => { s with exponent := s.exponent + Exponent.value e }

/-- The largest power of ten that is a double. -/
def largestPower : Nat := 308

/-- Divides by `10 ^ power`, in steps of the largest power. -/
def shrink (d : Binary64) (power : Nat) : Binary64 :=
  if _h : power ≤ largestPower then d.div (.ofRatio (powerOfTen power) 1)
  else if d.isZero then d
  else shrink (d.div (.ofRatio (powerOfTen largestPower) 1)) (power - largestPower)
termination_by power
decreasing_by simp only [largestPower] at *; omega

/-- A decimal, unless it is out of range. -/
def toDecimal? (n : Number) : Option Binary64 :=
  let s := n.scaled
  let d := Binary64.ofRatio s.significand 1
  let magnitude :=
    if s.exponent < 0 then some (shrink d s.exponent.natAbs)
    else if s.exponent.toNat ≤ largestPower then
      let product := d.mul (.ofRatio (powerOfTen s.exponent.toNat) 1)
      if product.isInfinite then none else some product
    else if d.isZero then some d else none
  magnitude.map (Binary64.withSign n.negative)

/-- Which exponents of the leading digit are written without an exponent. -/
def isPositional (exponent : Int) : Bool :=
  -5 ≤ exponent && exponent < 16

/-- Digits written around a point; at least one digit stands on each side. -/
def positional (negative : Bool) (digits : List Nat) (exponent : Int) : Number :=
  if exponent < 0 then
    { negative, whole := [0], fraction := List.replicate (exponent.natAbs - 1) 0 ++ digits }
  else
    let point := exponent.toNat + 1
    let whole := digits.take point ++ List.replicate (point - digits.length) 0
    let fraction := digits.drop point
    { negative, whole, fraction := if fraction.isEmpty then [0] else fraction }

/-- Digits written with a signed exponent. -/
def scientific (negative : Bool) (digits : List Nat) (exponent : Int) : Number :=
  { negative
    whole := digits.take 1
    fraction := digits.drop 1
    exponent := some ⟨if exponent < 0 then .minus else .plus, decimalDigits exponent.natAbs⟩ }

end UnitCompiler.Json.Number

namespace UnitCompiler.Json

/-- A decimal as JSON; what is no finite number is written as null. -/
def ofDecimal (d : Binary64) : Json :=
  match d.value with
  | .finite negative significand exponent =>
    if significand = 0 then .number (Number.positional negative [0] 0)
    else
      let shortest := Binary64.shortestDigits significand exponent
      if Number.isPositional shortest.exponent then
        .number (Number.positional negative shortest.digits shortest.exponent)
      else .number (Number.scientific negative shortest.digits shortest.exponent)
  | _ => .null

def ofInt (value : Int) : Json :=
  .number (Number.ofInt value)

def ofNat (value : Nat) : Json :=
  .number (Number.ofNat value)

end UnitCompiler.Json
