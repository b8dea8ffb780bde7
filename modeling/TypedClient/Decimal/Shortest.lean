import TypedClient.Decimal.Binary64

/-!
The fewest decimal digits that read back to a number, and their layout as text.
The digits are sought on ever finer decimal grids: the first grid with a point in
the interval of reals that round to the number gives them, by the nearer of the two
neighbours.
-/

set_option autoImplicit false

namespace TypedClient.Decimal

/-- The decimal `digits * 10 ^ exponent`. -/
structure Scaled where
  digits : Nat
  exponent : Int
  deriving DecidableEq, Repr

inductive Tie where
  | toEven
  | up
  deriving DecidableEq, Repr

def compareScaled (left : Nat) (leftExponent : Int) (right : Nat) (rightExponent : Int) : Ordering :=
  compare (left * Nat.pow 10 leftExponent.toNat * Nat.pow 2 (-rightExponent).toNat)
    (right * Nat.pow 2 rightExponent.toNat * Nat.pow 10 (-leftExponent).toNat)

/-- The neighbour below is half as far away at a power of two. -/
def narrowBelow (value : Binary64) : Bool :=
  value.mantissa == leastFullMantissa && decide (-1074 < value.exponent)

def readsBack (value : Binary64) (decimal : Scaled) : Bool :=
  let low := if narrowBelow value then 4 * value.mantissa - 1 else 4 * value.mantissa - 2
  let high := 4 * value.mantissa + 2
  let ends := value.mantissa % 2 == 0
  let above := compareScaled decimal.digits decimal.exponent low (value.exponent - 2)
  let below := compareScaled decimal.digits decimal.exponent high (value.exponent - 2)
  (above == .gt || (ends && above == .eq)) && (below == .lt || (ends && below == .eq))

/-- The least power of ten above the magnitude of a nonzero number. -/
def magnitude (value : Binary64) : Int :=
  let estimate := ((value.mantissa.log2 : Int) + value.exponent) * 30103 / 100000 - 1
  let candidates := [estimate, estimate + 1, estimate + 2, estimate + 3]
  (candidates.find? fun power =>
    compareScaled 1 power value.mantissa value.exponent == .gt).getD (estimate + 4)

def gridBelow (value : Binary64) (exponent : Int) : Nat :=
  (value.mantissa * Nat.pow 2 value.exponent.toNat * Nat.pow 10 (-exponent).toNat) /
    (Nat.pow 10 exponent.toNat * Nat.pow 2 (-value.exponent).toNat)

def nearer (tie : Tie) (value : Binary64) (below : Nat) (exponent : Int) : Nat :=
  match compareScaled (2 * below + 1) exponent (2 * value.mantissa) value.exponent with
  | .gt => below
  | .lt => below + 1
  | .eq => match tie with
    | .up => below + 1
    | .toEven => if below % 2 = 0 then below else below + 1

/-- The neighbour on one grid that reads back, the nearer one if both do. -/
def onGrid? (tie : Tie) (value : Binary64) (exponent : Int) : Option Scaled :=
  let below := gridBelow value exponent
  match readsBack value ⟨below, exponent⟩, readsBack value ⟨below + 1, exponent⟩ with
  | true, true => some ⟨nearer tie value below exponent, exponent⟩
  | true, false => some ⟨below, exponent⟩
  | false, true => some ⟨below + 1, exponent⟩
  | false, false => none

def exact (value : Binary64) : Scaled :=
  if 0 ≤ value.exponent then ⟨value.mantissa * Nat.pow 2 value.exponent.toNat, 0⟩
  else ⟨value.mantissa * Nat.pow 5 (-value.exponent).toNat, value.exponent⟩

def Scaled.strip : Nat → Scaled → Scaled
  | 0, decimal => decimal
  | limit + 1, decimal =>
    if decimal.digits ≠ 0 && decimal.digits % 10 == 0 then
      Scaled.strip limit ⟨decimal.digits / 10, decimal.exponent + 1⟩
    else decimal

def shortest (tie : Tie) (value : Binary64) : Scaled :=
  if value.isZero then ⟨0, 0⟩
  else
    let power := magnitude value
    let found := (List.range 17).findSome? fun (count : Nat) =>
      onGrid? tie value (power - (count + 1))
    let decimal := found.getD (exact value)
    decimal.strip decimal.digits.log2

structure Layout where
  tie : Tie
  /-- Exponents of the leading digit that are written positionally; every exponent if none. -/
  positional : Option (Int × Int)
  /-- Integers carry a point and a zero. -/
  pointZero : Bool
  deriving DecidableEq, Repr

def zeros (count : Nat) : String := String.ofList (List.replicate count '0')

def inPlace (pointZero : Bool) (digits : List Char) (leading : Int) : String :=
  if leading < 0 then "0." ++ zeros (-leading - 1).toNat ++ String.ofList digits
  else
    let whole := leading.toNat + 1
    if digits.length ≤ whole then
      String.ofList digits ++ zeros (whole - digits.length) ++ (if pointZero then ".0" else "")
    else String.ofList (digits.take whole) ++ "." ++ String.ofList (digits.drop whole)

def withExponent (digits : List Char) (leading : Int) : String :=
  let fraction := match digits with
    | [] => ""
    | [digit] => String.ofList [digit]
    | digit :: rest => String.ofList (digit :: '.' :: rest)
  fraction ++ (if leading < 0 then "e-" else "e+") ++ toString leading.natAbs

def Layout.magnitude (layout : Layout) (decimal : Scaled) : String :=
  let digits := (toString decimal.digits).toList
  let leading := decimal.exponent + digits.length - 1
  match layout.positional with
  | none => inPlace layout.pointZero digits leading
  | some (least, bound) =>
    if decimal.digits = 0 || (least ≤ leading && leading < bound) then
      inPlace layout.pointZero digits leading
    else withExponent digits leading

/-- The text of a number; a negative zero keeps its sign. -/
def Layout.render (layout : Layout) (value : Binary64) : String :=
  (if value.negative then "-" else "") ++ layout.magnitude (shortest layout.tie value)

end TypedClient.Decimal
