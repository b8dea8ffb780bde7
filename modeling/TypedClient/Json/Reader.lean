import TypedClient.Json.Value
import TypedClient.Text.Pieces

/-!
Reading JSON text. The characters become tokens, and the tokens are read from left to
right with a stack of the arrays and objects that are still open.
-/

set_option autoImplicit false

namespace TypedClient.Json

open Decimal (Binary64)
open Text (hexValue? digitValue digitsValue)

inductive Token where
  | openObject
  | closeObject
  | openArray
  | closeArray
  | comma
  | colon
  | scalar (value : Value)
  deriving Repr

namespace Token

def isHighSurrogate (unit : Nat) : Bool := 0xD800 ≤ unit && unit < 0xDC00

def isLowSurrogate (unit : Nat) : Bool := 0xDC00 ≤ unit && unit < 0xE000

def escaped? : Char → Option Char
  | '"' => some '"'
  | '\\' => some '\\'
  | '/' => some '/'
  | 'b' => some '\x08'
  | 'f' => some '\x0c'
  | 'n' => some '\n'
  | 'r' => some '\r'
  | 't' => some '\t'
  | _ => none

def readString : List Char → Option (List Char × List Char)
  | [] => none
  | '"' :: rest => some ([], rest)
  | '\\' :: 'u' :: a :: b :: c :: d :: rest => do
    let unit ← hexValue? [a, b, c, d]
    -- The first half of a character needs the second one behind it, which has no meaning alone.
    if isHighSurrogate unit then
      match rest with
      | '\\' :: 'u' :: e :: f :: g :: h :: rest =>
        let low ← hexValue? [e, f, g, h]
        if isLowSurrogate low then
          let (text, rest) ← readString rest
          return (Char.ofNat ((unit - 0xD800) * 0x400 + (low - 0xDC00) + 0x10000) :: text, rest)
        else none
      | _ => none
    else if isLowSurrogate unit then none
    else
      let (text, rest) ← readString rest
      return (Char.ofNat unit :: text, rest)
  | '\\' :: c :: rest => do
    let plain ← escaped? c
    let (text, rest) ← readString rest
    return (plain :: text, rest)
  | c :: rest =>
    if c.toNat < 0x20 then none
    else do
      let (text, rest) ← readString rest
      return (c :: text, rest)

/-- A significand of 64 bits. Once a digit does not fit, it and those behind it are only counted. -/
structure Significand where
  value : Nat
  dropped : Nat
  kept : Nat

def Significand.add (significand : Significand) (digit : Char) : Significand :=
  let next := significand.value * 10 + digitValue digit
  if significand.dropped = 0 && decide (next < 0x10000000000000000) then
    { significand with value := next, kept := significand.kept + 1 }
  else { significand with dropped := significand.dropped + 1 }

def Significand.ofDigits (start : Nat) (digits : List Char) : Significand :=
  digits.foldl Significand.add ⟨start, 0, 0⟩

def readExponent (text : List Char) : Option (Int × List Char) :=
  let (negative, text) := match text with
    | '-' :: rest => (true, rest)
    | '+' :: rest => (false, rest)
    | _ => (false, text)
  let digits := text.takeWhile Char.isDigit
  if digits.isEmpty then none
  else
    let value : Int := digitsValue digits
    some (if negative then -value else value, text.dropWhile Char.isDigit)

/-- An integer when it has 64 bits, else the nearest number for its significand. -/
def wholeNumber (negative : Bool) (whole : Significand) : Option Value :=
  if whole.dropped = 0 && !negative then some (.integer whole.value)
  else if whole.dropped = 0 && negative && decide (0 < whole.value) &&
      decide (whole.value ≤ 0x8000000000000000) then
    some (.integer (-(whole.value : Int)))
  else (Binary64.ofSignificand? negative whole.value whole.dropped).map .float

/-- A number and what follows it. A whole part has no leading zeros; points and exponents have
digits. -/
def readNumber (text : List Char) : Option (Value × List Char) := do
  let (negative, text) := match text with
    | '-' :: rest => (true, rest)
    | _ => (false, text)
  let digits := text.takeWhile Char.isDigit
  let text := text.dropWhile Char.isDigit
  if digits.isEmpty || (digits.head? == some '0' && digits.length ≠ 1) then none
  let whole := Significand.ofDigits 0 digits
  match text with
  | '.' :: text =>
    let digits := text.takeWhile Char.isDigit
    let text := text.dropWhile Char.isDigit
    if digits.isEmpty then none
    let all := Significand.ofDigits whole.value digits
    let exponent : Int := (whole.dropped : Int) - all.kept
    match text with
    | c :: rest =>
      if c == 'e' || c == 'E' then
        let (shift, rest) ← readExponent rest
        let number ← Binary64.ofSignificand? negative all.value (exponent + shift)
        return (.float number, rest)
      else
        let number ← Binary64.ofSignificand? negative all.value exponent
        return (.float number, text)
    | [] =>
      let number ← Binary64.ofSignificand? negative all.value exponent
      return (.float number, [])
  | c :: rest =>
    if c == 'e' || c == 'E' then
      let (shift, rest) ← readExponent rest
      let number ← Binary64.ofSignificand? negative whole.value (whole.dropped + shift)
      return (.float number, rest)
    else return (← wholeNumber negative whole, text)
  | [] => return (← wholeNumber negative whole, [])

def isSpace (c : Char) : Bool := c == ' ' || c == '\n' || c == '\t' || c == '\r'

/-- The tokens of a text. Each takes at least one character, so the length of the text is limit
enough. -/
def scan : Nat → List Char → Option (List Token)
  | _, [] => some []
  | 0, _ => none
  | limit + 1, '{' :: rest => (openObject :: ·) <$> scan limit rest
  | limit + 1, '}' :: rest => (closeObject :: ·) <$> scan limit rest
  | limit + 1, '[' :: rest => (openArray :: ·) <$> scan limit rest
  | limit + 1, ']' :: rest => (closeArray :: ·) <$> scan limit rest
  | limit + 1, ',' :: rest => (comma :: ·) <$> scan limit rest
  | limit + 1, ':' :: rest => (colon :: ·) <$> scan limit rest
  | limit + 1, '"' :: rest => do
    let (text, rest) ← readString rest
    return scalar (.string (String.ofList text)) :: (← scan limit rest)
  | limit + 1, 't' :: 'r' :: 'u' :: 'e' :: rest => (scalar (.bool true) :: ·) <$> scan limit rest
  | limit + 1, 'f' :: 'a' :: 'l' :: 's' :: 'e' :: rest =>
    (scalar (.bool false) :: ·) <$> scan limit rest
  | limit + 1, 'n' :: 'u' :: 'l' :: 'l' :: rest => (scalar .null :: ·) <$> scan limit rest
  | limit + 1, c :: rest =>
    if isSpace c then scan limit rest
    else do
      let (number, rest) ← readNumber (c :: rest)
      return scalar number :: (← scan limit rest)

end Token

inductive Frame where
  | array (items : List Value)
  | object (members : Members) (key : String)
  deriving Repr

inductive Expected where
  | value
  | firstItem
  | firstKey (members : Members)
  | key (members : Members)
  | colon (members : Members) (key : String)
  | after (value : Value)
  deriving Repr

def deepest : Nat := 127

def assemble : Expected → List Frame → List Token → Option Value
  | .after value, [], [] => some value
  | .after value, .array items :: frames, .comma :: rest =>
    assemble .value (.array (value :: items) :: frames) rest
  | .after value, .array items :: frames, .closeArray :: rest =>
    assemble (.after (.array (value :: items).reverse)) frames rest
  | .after value, .object members key :: frames, .comma :: rest =>
    assemble (.key (Value.insert key value members)) frames rest
  | .after value, .object members key :: frames, .closeObject :: rest =>
    assemble (.after (.object (Value.insert key value members))) frames rest
  -- Brackets may close at once, but not behind a comma.
  | .firstItem, .array _ :: frames, .closeArray :: rest => assemble (.after (.array [])) frames rest
  | .firstKey _, frames, .closeObject :: rest => assemble (.after (.object [])) frames rest
  | .firstKey members, frames, .scalar (.string key) :: rest =>
    assemble (.colon members key) frames rest
  | .key members, frames, .scalar (.string key) :: rest => assemble (.colon members key) frames rest
  | .colon members key, frames, .colon :: rest =>
    assemble .value (.object members key :: frames) rest
  | .value, frames, token :: rest => begin frames token rest
  | .firstItem, frames, token :: rest => begin frames token rest
  | _, _, _ => none
where
  /-- The value that begins with a token. -/
  begin (frames : List Frame) (token : Token) (rest : List Token) : Option Value :=
    match token with
    | .scalar value => assemble (.after value) frames rest
    | .openArray =>
      if frames.length < deepest then assemble .firstItem (.array [] :: frames) rest else none
    | .openObject => if frames.length < deepest then assemble (.firstKey []) frames rest else none
    | _ => none

def read? (text : String) : Option Value := do
  let characters := text.toList
  let tokens ← Token.scan characters.length characters
  assemble .value [] tokens

end TypedClient.Json
