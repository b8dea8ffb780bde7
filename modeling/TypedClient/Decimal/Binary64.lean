/-!
Finite binary floating-point numbers of 64 bits, as a sign and an exact
`mantissa * 2 ^ exponent`. Every operation takes an exact ratio and rounds it once,
to the nearest representable number and in a tie to the even mantissa.
-/

set_option autoImplicit false

namespace TypedClient.Decimal

abbrev leastFullMantissa : Nat := 0x10000000000000

abbrev mantissaBound : Nat := 0x20000000000000

/-- Mantissas have 53 bits, and fewer only at the least exponent. -/
def Representable (mantissa : Nat) (exponent : Int) : Prop :=
  mantissa < mantissaBound ∧ -1074 ≤ exponent ∧ exponent ≤ 971 ∧
    (leastFullMantissa ≤ mantissa ∨ exponent = -1074)

instance (mantissa : Nat) (exponent : Int) : Decidable (Representable mantissa exponent) := by
  unfold Representable
  infer_instance

structure Binary64 where
  negative : Bool
  mantissa : Nat
  exponent : Int
  representable : Representable mantissa exponent
  deriving DecidableEq, Repr

namespace Binary64

def zero (negative : Bool) : Binary64 := ⟨negative, 0, -1074, by decide⟩

instance : Inhabited Binary64 := ⟨zero false⟩

def isZero (value : Binary64) : Bool := value.mantissa == 0

def sameNumber (left right : Binary64) : Bool :=
  left.mantissa == right.mantissa && left.exponent == right.exponent &&
    (left.negative == right.negative || left.mantissa == 0)

end Binary64

/-- The integer nearest to a ratio; of two the even one. -/
def roundHalfEven (numerator denominator : Nat) : Nat :=
  let quotient := numerator / denominator
  let twice := 2 * (numerator % denominator)
  if twice < denominator then quotient
  else if denominator < twice then quotient + 1
  else if quotient % 2 = 0 then quotient else quotient + 1

def inUnits (numerator denominator : Nat) (exponent : Int) : Nat × Nat :=
  (numerator * Nat.pow 2 (-exponent).toNat, denominator * Nat.pow 2 exponent.toNat)

/-- The unit in which a positive ratio has 53 binary digits, or the least unit there is. -/
def unitExponent (numerator denominator : Nat) : Int :=
  let estimate : Int := (numerator.log2 : Int) - denominator.log2
  let (scaled, unit) := inUnits numerator denominator (estimate - 52)
  let exponent := if scaled < unit * leastFullMantissa then estimate - 53 else estimate - 52
  max exponent (-1074)

def roundRatio (numerator denominator : Nat) : Nat × Int :=
  if numerator = 0 then (0, -1074)
  else
    let exponent := unitExponent numerator denominator
    let (scaled, unit) := inUnits numerator denominator exponent
    let mantissa := roundHalfEven scaled unit
    if mantissa = mantissaBound then (leastFullMantissa, exponent + 1) else (mantissa, exponent)

namespace Binary64

def ofRatio? (negative : Bool) (numerator denominator : Nat) : Option Binary64 :=
  let (mantissa, exponent) := roundRatio numerator denominator
  if h : Representable mantissa exponent then some ⟨negative, mantissa, exponent, h⟩ else none

def ofNat? (negative : Bool) (value : Nat) : Option Binary64 := ofRatio? negative value 1

def mul? (left right : Binary64) : Option Binary64 :=
  let (numerator, denominator) :=
    inUnits (left.mantissa * right.mantissa) 1 (-(left.exponent + right.exponent))
  ofRatio? (left.negative != right.negative) numerator denominator

def div? (left right : Binary64) : Option Binary64 :=
  let (numerator, denominator) :=
    inUnits left.mantissa right.mantissa (right.exponent - left.exponent)
  ofRatio? (left.negative != right.negative) numerator denominator

/-- Decimal exponents beyond these bounds overflow or vanish, whatever the digits. -/
def decimalBound : Int := 400

def ofDecimal? (negative : Bool) (digits : Nat) (exponent : Int) : Option Binary64 :=
  let magnitude : Int := exponent + digits.log2 * 3 / 10
  if digits = 0 then some (zero negative)
  else if decimalBound < magnitude then none
  else if magnitude < -(decimalBound + digits.log2) then some (zero negative)
  else ofRatio? negative (digits * Nat.pow 10 exponent.toNat) (Nat.pow 10 (-exponent).toNat)

def tenPower? (exponent : Nat) : Option Binary64 := ofNat? false (Nat.pow 10 exponent)

def largestTenPower : Nat := 308

/-- Divided by the largest power of ten, `times` times or until nothing is left. -/
def shrink : Nat → Binary64 → Option Binary64
  | 0, value => some value
  | times + 1, value =>
    if value.isZero then some value
    else do
      let divisor ← tenPower? largestTenPower
      let quotient ← value.div? divisor
      shrink times quotient

/-- Moved by a power of ten in steps that each round; none when the result is too large. -/
def shiftTen? (value : Binary64) (exponent : Int) : Option Binary64 :=
  if value.isZero then some value
  else if 0 ≤ exponent then
    if exponent.toNat ≤ largestTenPower then do
      let power ← tenPower? exponent.toNat
      value.mul? power
    else none
  else do
    let places := (-exponent).toNat
    let times := (places - 1) / largestTenPower
    let smaller ← shrink times value
    if smaller.isZero then return smaller
    let power ← tenPower? (places - times * largestTenPower)
    smaller.div? power

/-- The number for a significand and a power of ten, with the significand rounded first. -/
def ofSignificand? (negative : Bool) (significand : Nat) (exponent : Int) : Option Binary64 := do
  let rounded ← ofNat? negative significand
  rounded.shiftTen? exponent

end Binary64

end TypedClient.Decimal
