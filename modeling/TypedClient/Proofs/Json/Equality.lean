import TypedClient.Json.Value

/-! Equality of JSON values: numbers by their value, objects whatever the order of their
members.
-/

set_option autoImplicit false

namespace TypedClient

open Decimal (Binary64)

def Decimal.Binary64.toRat (value : Binary64) : Rat :=
  mkRat ((if value.negative then -1 else 1) * (value.mantissa * Nat.pow 2 value.exponent.toNat : Nat))
    (Nat.pow 2 (-value.exponent).toNat)

theorem Decimal.Binary64.toRat_eq_of_sameNumber {left right : Binary64}
    (same : left.sameNumber right = true) : left.toRat = right.toRat := by
  simp only [sameNumber, Bool.and_eq_true, Bool.or_eq_true, beq_iff_eq] at same
  obtain ⟨⟨mantissa, exponent⟩, negative | zero⟩ := same
  · simp only [toRat, mantissa, exponent, negative]
  · simp only [toRat, ← mantissa, zero, exponent, Nat.zero_mul, Int.natCast_zero, Int.mul_zero]

namespace Json.Value

def number? : Value → Option Rat
  | integer value => some value
  | float value => some value.toRat
  | _ => none

mutual

def same : Value → Value → Bool
  | null, null => true
  | bool left, bool right => left == right
  | integer left, right => right.number? == some (left : Rat)
  | float left, right => right.number? == some left.toRat
  | string left, string right => left == right
  | array left, array right => sameItems left right
  | object left, object right => left.length == right.length && sameMembers left right
  | _, _ => false

def sameItems : List Value → List Value → Bool
  | [], [] => true
  | left :: lefts, right :: rights => left.same right && sameItems lefts rights
  | _, _ => false

/-- Every member is among the others under its name. -/
def sameMembers : Members → Members → Bool
  | [], _ => true
  | (name, value) :: rest, others =>
    (match others.lookup name with
      | some other => value.same other
      | none => false) && sameMembers rest others

end

theorem same_iff_of_number {value other : Value} {number : Rat}
    (given : other.number? = some number) :
    value.same other = true ↔ value.number? = some number := by
  cases value with
  | integer left => rw [same, beq_iff_eq, given, number?, Option.some_inj, Option.some_inj, eq_comm]
  | float left => rw [same, beq_iff_eq, given, number?, Option.some_inj, Option.some_inj, eq_comm]
  | _ => cases other <;> simp_all [same, number?]

end Json.Value

end TypedClient
