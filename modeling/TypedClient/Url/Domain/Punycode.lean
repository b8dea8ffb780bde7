import TypedClient.Text.Pieces

/-!
Labels of domains in letters, digits and hyphens of ASCII. The characters of ASCII come first, up
to the last hyphen. Behind it a number for each other character says how far the next one is, if
one goes through the places of the label for one code point after the other.
-/

set_option autoImplicit false

namespace TypedClient.Url.Punycode

open Text (charOfCode? digitValue)

def digit? (c : Char) : Option Nat :=
  if 'a' ≤ c ∧ c ≤ 'z' then some (c.toNat - 'a'.toNat)
  else if c.isDigit then some (digitValue c + 26)
  else none

/-- A digit below the threshold of its place ends a number. Places are counted in steps of 36. -/
def threshold (bias place : Nat) : Nat :=
  if place ≤ bias then 1 else if bias + 26 ≤ place then 26 else place - bias

def readDelta (bias : Nat) : Nat → Nat → Nat → List Char → Option (Nat × List Char)
  | _, _, _, [] => none
  | place, weight, delta, c :: rest => do
    let digit ← digit? c
    let delta := delta + digit * weight
    let least := threshold bias place
    if digit < least then return (delta, rest)
    else readDelta bias (place + 36) (weight * (36 - least)) delta rest

theorem length_lt_of_readDelta {bias place weight delta found : Nat} {text rest : List Char}
    (read : readDelta bias place weight delta text = some (found, rest)) :
    rest.length < text.length := by
  induction text generalizing place weight delta with
  | nil => simp [readDelta] at read
  | cons c text ih =>
    cases digit : digit? c with
    | none => simp [readDelta, digit] at read
    | some value =>
      simp only [readDelta, digit, Option.bind_eq_bind, Option.bind_some] at read
      split at read
      · simp only [Option.pure_def, Option.some.injEq, Prod.mk.injEq] at read
        simp [← read.2]
      · exact Nat.lt_succ_of_lt (ih read)

def shrink (delta places : Nat) : Nat × Nat :=
  if 455 < delta then shrink (delta / 35) (places + 36) else (delta, places)
termination_by delta
decreasing_by exact Nat.div_lt_self (by omega) (by omega)

def nextBias (delta length : Nat) (first : Bool) : Nat :=
  let delta := if first then delta / 700 else delta / 2
  let (delta, places) := shrink (delta + delta / length) 0
  places + 36 * delta / (delta + 38)

def insertAll (bias code place : Nat) (label text : List Char) : Option (List Char) :=
  if text.isEmpty then some label
  else match read : readDelta bias 36 1 0 text with
    | none => none
    | some (delta, rest) => do
      -- Numbers run through all places of the label for one code point, and then for the next.
      let length := label.length + 1
      let total := place + delta
      let code := code + total / length
      let next := total % length
      insertAll (nextBias delta length (place == 0)) code (next + 1)
        (label.insertIdx next (← charOfCode? code)) rest
termination_by text.length
decreasing_by exact length_lt_of_readDelta read

def decode? (text : List Char) : Option (List Char) :=
  let tail := (text.reverse.takeWhile (· != '-')).reverse
  let plain := text.take (text.length - tail.length - 1)
  if plain.all (·.toNat < 0x80) then insertAll 72 0x80 0 plain tail else none

end TypedClient.Url.Punycode
