import TypedClient.Decimal.Binary64
import TypedClient.Text.Pieces

/-!
Tokens of GraphQL schema definitions. White space, commas and comments stand between
them; brackets are nested at most 50 deep.
-/

set_option autoImplicit false

namespace TypedClient.GraphQl.Definitions

open Decimal (Binary64)
open Text (hexValue? charOfCode? digitsValue)

/-- A number with a fraction or an exponent. One that is too large is infinite. -/
inductive Number where
  | finite (value : Binary64)
  | infinite (negative : Bool)
  deriving DecidableEq, Repr

inductive Token where
  | mark (c : Char)
  | name (text : String)
  | integer (value : Int)
  | number (value : Number)
  | text (value : String)
  deriving DecidableEq, Repr

def isNameStart (c : Char) : Bool := c.isAlpha || c == '_'

def isNameChar (c : Char) : Bool := c.isAlphanum || c == '_'

def isOpening (c : Char) : Bool := c == '(' || c == '[' || c == '{'

def isClosing (c : Char) : Bool := c == ')' || c == ']' || c == '}'

def isMark (c : Char) : Bool := "!$:=@|&".toList.contains c

def isIgnored (c : Char) : Bool :=
  c == ' ' || c == '\t' || c == '\r' || c == '\n' || c == ',' || c == '\uFEFF'

def isLineEnd (c : Char) : Bool := c == '\r' || c == '\n'

def endsNumber (c : Char) : Bool :=
  c == ' ' || c == '\n' || c == '\r' || c == '\t' || c == ',' || c == '#' || isMark c ||
    isOpening c || isClosing c

def isWhole (digits : List Char) : Bool :=
  match digits with
  | [] => false
  | '0' :: rest => rest.isEmpty
  | _ => true

/-- An exponent has a sign, or begins with one of the digits from 1 to 8. -/
def exponent? (text : List Char) : Option Int :=
  match text with
  | [] => none
  | c :: rest =>
    if c == '+' || c == '-' then
      if rest.isEmpty || !rest.all Char.isDigit then none
      else some (if c == '-' then -(digitsValue rest : Int) else digitsValue rest)
    else if '1' ≤ c && c ≤ '8' && rest.all Char.isDigit then some (digitsValue text)
    else none

def Number.ofDecimal (negative : Bool) (digits : List Char) (exponent : Int) : Number :=
  match Binary64.ofDecimal? negative (digitsValue digits) exponent with
  | some value => .finite value
  | none => .infinite negative

def numberTail? (negative : Bool) (whole : List Char) : List Char → Option Token
  | [] =>
    let value : Int := if negative then -(digitsValue whole : Int) else digitsValue whole
    if -0x8000000000000000 ≤ value ∧ value < 0x8000000000000000 then some (.integer value) else none
  | '.' :: rest =>
    let fraction := rest.takeWhile Char.isDigit
    if fraction.isEmpty then none
    else match rest.dropWhile Char.isDigit with
      | [] => some (.number (.ofDecimal negative (whole ++ fraction) (-fraction.length)))
      | c :: rest =>
        if c == 'e' || c == 'E' then
          (exponent? rest).map fun shift =>
            .number (.ofDecimal negative (whole ++ fraction) (shift - fraction.length))
        else none
  | c :: rest =>
    if c == 'e' || c == 'E' then
      (exponent? rest).map fun shift => .number (.ofDecimal negative whole shift)
    else none

def number? (text : List Char) : Option Token :=
  let (negative, text) := match text with
    | '-' :: rest => (true, rest)
    | _ => (false, text)
  let whole := text.takeWhile Char.isDigit
  if isWhole whole then numberTail? negative whole (text.dropWhile Char.isDigit) else none

def escaped? : Char → Option Char
  | '"' => some '"'
  | '\\' => some '\\'
  | '/' => some '/'
  | 'b' => some '\x10'
  | 'f' => some '\x0c'
  | 'n' => some '\n'
  | 'r' => some '\r'
  | 't' => some '\t'
  | _ => none

/-- The value of four hexadecimal digits, of which the first may be a plus sign. -/
def codeValue? : List Char → Option Nat
  | '+' :: digits => hexValue? digits
  | digits => hexValue? digits

def readText : List Char → Option (List Char × List Char)
  | [] => none
  | '"' :: rest => some ([], rest)
  -- A quoted text ends on the line on which it begins.
  | '\n' :: _ => none
  | '\\' :: 'u' :: a :: b :: c :: d :: rest => do
    let code ← codeValue? [a, b, c, d]
    let plain ← charOfCode? code
    let (text, rest) ← readText rest
    return (plain :: text, rest)
  | '\\' :: c :: rest => do
    let plain ← escaped? c
    let (text, rest) ← readText rest
    return (plain :: text, rest)
  | c :: rest => do
    let (text, rest) ← readText rest
    return (c :: text, rest)

/-- The rest of a block text up to its three closing quotes, and what follows it. Behind a
backslash three quotes stand for themselves. -/
def readBlock : List Char → Option (List Char × List Char)
  | [] => none
  | '\\' :: '"' :: '"' :: '"' :: rest => do
    let (text, rest) ← readBlock rest
    return ('"' :: '"' :: '"' :: text, rest)
  | '"' :: '"' :: '"' :: rest => some ([], rest)
  | c :: rest => do
    let (text, rest) ← readBlock rest
    return (c :: text, rest)

def width (text : List Char) : Nat := text.foldl (fun width c => width + c.utf8Size) 0

def dropBytes : Nat → List Char → List Char
  | 0, text => text
  | _, [] => []
  | bytes, c :: rest =>
    if c.utf8Size ≤ bytes then dropBytes (bytes - c.utf8Size) rest
    -- An indentation that ends inside of a blank of several bytes is assumed to take all of it.
    else rest

/-- Takes an indentation of `bytes` bytes off a line; a shorter line stays as it is. -/
def dropIndent (bytes : Nat) (line : List Char) : List Char :=
  if width line < bytes then line else dropBytes bytes line

def commonIndent (lines : List (List Char)) : Nat :=
  let indents := (lines.filter fun line => !line.all Text.isBlank).map fun line =>
    width (line.takeWhile Text.isBlank)
  indents.min?.getD 0

def joinLines : List (List Char) → List Char
  | [] => []
  | [line] => line
  | line :: rest => line ++ '\n' :: joinLines rest

def dropBlankEnd (lines : List (List Char)) : List (List Char) :=
  (lines.reverse.dropWhile fun line => line.all Text.isBlank).reverse

/-- The meaning of a block text: the indentation that its lines share is dropped, except from the
first line and from blank lines that have less, and so are blank lines at both ends. -/
def blockText (raw : List Char) : List Char :=
  match Text.lineList raw with
  | [] => []
  | first :: rest =>
    let indent := commonIndent rest
    let lines := first :: rest.map (dropIndent indent)
    joinLines (dropBlankEnd (lines.dropWhile fun line => line.all Text.isBlank))

def deepest : Nat := 50

/-- The tokens behind `depth` open brackets. Each takes at least one character, so the length of
the text is limit enough. -/
def scan : Nat → Nat → List Char → Option (List Token)
  | _, _, [] => some []
  | 0, _, _ => none
  | limit + 1, depth, '"' :: '"' :: '"' :: rest => do
    let (raw, rest) ← readBlock rest
    return .text (String.ofList (blockText raw)) :: (← scan limit depth rest)
  | limit + 1, depth, '"' :: rest => do
    let (text, rest) ← readText rest
    return .text (String.ofList text) :: (← scan limit depth rest)
  | limit + 1, depth, c :: rest =>
    if isIgnored c then scan limit depth rest
    else if c == '#' then scan limit depth (rest.dropWhile fun c => !isLineEnd c)
    else if isOpening c then
      if depth < deepest then (.mark c :: ·) <$> scan limit (depth + 1) rest else none
    else if isClosing c then (.mark c :: ·) <$> scan limit (depth - 1) rest
    else if isMark c then (.mark c :: ·) <$> scan limit depth rest
    else if isNameStart c then
      (.name (String.ofList (c :: rest.takeWhile isNameChar)) :: ·) <$>
        scan limit depth (rest.dropWhile isNameChar)
    else if c.isDigit || c == '-' then do
      let number ← number? (c :: rest.takeWhile fun c => !endsNumber c)
      return number :: (← scan limit depth (rest.dropWhile fun c => !endsNumber c))
    else none

def tokens? (text : String) : Option (List Token) :=
  let characters := text.toList
  scan characters.length 0 characters

end TypedClient.GraphQl.Definitions
