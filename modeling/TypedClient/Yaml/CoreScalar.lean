import TypedClient.Json.Value
import TypedClient.Text.Pieces

/-!
What plain scalars mean: null, booleans, integers and other numbers of the core schema, and
texts for everything else.
-/

set_option autoImplicit false

namespace TypedClient.Yaml

open Decimal (Binary64)
open Json (Value)
open Text (hexDigit?)

def isNullText (text : String) : Bool := ["null", "Null", "NULL", "~"].contains text

def boolean? (text : String) : Option Bool :=
  if ["true", "True", "TRUE"].contains text then some true
  else if ["false", "False", "FALSE"].contains text then some false
  else none

def digitsValue? (base : Nat) (digits : List Char) : Option Nat :=
  if digits.isEmpty then none
  else digits.foldlM (fun value c => do
    let digit ← hexDigit? c
    if digit < base then some (value * base + digit) else none) 0

def cutSign : List Char → Bool × List Char
  | '-' :: rest => (true, rest)
  | '+' :: rest => (false, rest)
  | text => (false, text)

/-- Digits of which the first of several is a zero make no number. -/
def isPadded (text : List Char) : Bool :=
  match (cutSign text).2 with
  | '0' :: c :: rest => (c :: rest).all Char.isDigit
  | _ => false

def integer? (text : List Char) : Option Int :=
  let (negative, digits) := cutSign text
  let magnitude : Option Nat := match digits with
    | '0' :: 'x' :: rest => digitsValue? 16 rest
    | '0' :: 'o' :: rest => digitsValue? 8 rest
    | '0' :: 'b' :: rest => digitsValue? 2 rest
    | _ => if isPadded text then none else digitsValue? 10 digits
  magnitude.map fun magnitude => if negative then -(magnitude : Int) else magnitude

/-- Integers beyond 64 bits are errors as long as they have 128 bits. -/
def isOversized (value : Int) : Bool :=
  !(Value.isInt64 value || Value.isUInt64 value) &&
    decide (-0x80000000000000000000000000000000 ≤ value) &&
      decide (value < 0x100000000000000000000000000000000)

def exponent? : List Char → Option Int
  | [] => some 0
  | c :: rest =>
    if c == 'e' || c == 'E' then
      let (negative, digits) := cutSign rest
      (digitsValue? 10 digits).map fun value => if negative then -(value : Int) else value
    else none

def number? (text : List Char) : Option Binary64 := do
  let (negative, digits) := cutSign text
  let whole := digits.takeWhile Char.isDigit
  let (fraction, rest) := match digits.dropWhile Char.isDigit with
    | '.' :: rest => (rest.takeWhile Char.isDigit, rest.dropWhile Char.isDigit)
    | rest => ([], rest)
  let significand ← digitsValue? 10 (whole ++ fraction)
  let exponent ← exponent? rest
  Binary64.ofDecimal? negative significand (exponent - fraction.length)

def isUnbounded (text : String) : Bool :=
  [".inf", ".Inf", ".INF", "+.inf", "+.Inf", "+.INF", "-.inf", "-.Inf", "-.INF",
   ".nan", ".NaN", ".NAN"].contains text

/-- A number that is no integer; null stands for those that JSON does not have. -/
def float? (text : String) : Option Value :=
  if isUnbounded text then some .null else (number? text.toList).map .float

/-- The value of an integer's text. The outer option tells whether it is one, the inner whether
it can be kept. -/
def integerValue? (text : String) : Option (Option Value) :=
  match integer? text.toList with
  | none => none
  | some value =>
    if Value.isInt64 value || Value.isUInt64 value then some (some (.integer value))
    else if isOversized value then some none
    else none

def plainValue? (text : String) : Option Value :=
  if text.isEmpty || isNullText text then some .null
  else match boolean? text with
    | some value => some (.bool value)
    | none => match integerValue? text with
      | some value => value
      | none =>
        if isPadded text.toList then some (.string text)
        else some ((float? text).getD (.string text))

def coreTag (name : String) : String := "tag:yaml.org,2002:" ++ name

/-- The value of a scalar. The core schema's tags for null, booleans and numbers ask for such a
value, any other makes a text. -/
def scalarValue? (tag : Option String) (text : String) (plain : Bool) : Option Value :=
  match tag with
  | none => if plain then plainValue? text else some (.string text)
  | some tag =>
    if tag = coreTag "bool" then (boolean? text).map .bool
    else if tag = coreTag "int" then (integerValue? text).join
    else if tag = coreTag "float" then float? text
    else if tag = coreTag "null" then if isNullText text then some .null else none
    else some (.string text)

end TypedClient.Yaml
