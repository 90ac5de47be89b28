/-!
# Double precision decimals

A decimal is its sixty-four bits. Reading rounds an exact ratio of natural numbers to the nearest
double, a tie to the even neighbour; products and quotients are exact ratios rounded the same way.
-/

namespace UnitCompiler

structure Binary64 where
  bits : UInt64
  deriving DecidableEq, Repr

namespace Binary64

/-- The bit of the sign. -/
def signBit : Nat := 0x8000000000000000

/-- The leading bit of a significand, which is not stored. -/
def hiddenBit : Nat := 0x10000000000000

def infinityBits : Nat := 0x7ff0000000000000

def powerOfTen (exponent : Nat) : Nat := Nat.pow 10 exponent

/-- What a bit pattern stands for: `significand * 2 ^ (exponent - 1074)`, or no finite number. -/
inductive Value where
  | finite (negative : Bool) (significand exponent : Nat)
  | infinite (negative : Bool)
  | undefined
  deriving DecidableEq, Repr

def value (d : Binary64) : Value :=
  let magnitude := d.bits.toNat % signBit
  let negative := decide (signBit ≤ d.bits.toNat)
  let field := magnitude / hiddenBit
  let fraction := magnitude % hiddenBit
  if field = 0x7ff then (if fraction = 0 then .infinite negative else .undefined)
  else if field = 0 then .finite negative fraction 0
  else .finite negative (fraction + hiddenBit) (field - 1)

def negate (d : Binary64) : Binary64 :=
  ⟨d.bits ^^^ 0x8000000000000000⟩

def withSign (negative : Bool) (d : Binary64) : Binary64 :=
  if negative then d.negate else d

/-- The quotient rounded to the nearest natural number, a tie to the even one. -/
def roundQuotient (num den : Nat) : Nat :=
  let quotient := num / den
  let rest := 2 * (num % den)
  if rest < den then quotient
  else if den < rest then quotient + 1
  else if quotient % 2 = 0 then quotient else quotient + 1

/-- The least exponent, counted from `2 ^ (-1074)`, at which `num / den` has a significand below
`2 ^ 53`. -/
def leastExponent (num den : Nat) : Nat :=
  let guess := num.log2 + 1074 - den.log2 - 53
  if num <<< 1074 < den <<< (guess + 53) then guess else guess + 1

/-- The double nearest to `num / den`. -/
def ofRatio (num den : Nat) : Binary64 :=
  if num = 0 then ⟨0⟩ else
  let exponent := leastExponent num den
  let significand := roundQuotient (num <<< 1074) (den <<< exponent)
  ⟨UInt64.ofNat (min infinityBits (exponent * hiddenBit + significand))⟩

def isInfinite (d : Binary64) : Bool :=
  d.bits.toNat % signBit = infinityBits

def isZero (d : Binary64) : Bool :=
  d.bits.toNat % signBit = 0

/-- The product of two finite magnitudes. -/
def mul (a b : Binary64) : Binary64 :=
  match a.value, b.value with
  | .finite _ m p, .finite _ n q => ofRatio ((m * n) <<< (p + q)) (1 <<< 2148)
  | _, _ => ⟨UInt64.ofNat infinityBits⟩

/-- The quotient of two finite magnitudes. -/
def div (a b : Binary64) : Binary64 :=
  match a.value, b.value with
  | .finite _ m p, .finite _ n q => ofRatio (m <<< p) (n <<< q)
  | _, _ => ⟨UInt64.ofNat infinityBits⟩

/-- The value of a run of decimal digits. -/
def digitsValue (digits : List Nat) : Nat :=
  digits.foldl (fun total digit => total * 10 + digit) 0

/-- The decimal with the given digits before and after its point. -/
def ofDigits (whole fraction : List Nat) : Binary64 :=
  ofRatio (digitsValue (whole ++ fraction)) (powerOfTen fraction.length)

end Binary64

end UnitCompiler
