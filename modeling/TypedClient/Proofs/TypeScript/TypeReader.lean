import Mathlib.Algebra.Group.Nat.Defs
import TypedClient.Text.Identifier
import TypedClient.Text.Pieces
import TypedClient.TypeScript.TypeExpr

/-! Reading type expressions.

A text is cut into lexemes by a machine that takes one character at a time. Intersections
bind tighter than unions, and parentheses leave no trace: what a type is made of does not
depend on how its text groups alternatives among alternatives or parts among parts.
-/

set_option autoImplicit false

namespace TypedClient.TypeScript

open Decimal (Binary64)
open Text (isIdentifierStart isIdentifierChar digitsValue)

/-- What the text of a type says. A name without arguments is a plain reference. -/
inductive TypeSyntax where
  | keyword (kind : Scalar)
  | boolean (value : Bool)
  | text (value : String)
  /-- The nearest number, if it is in range. Both zeros are the positive one. -/
  | number (value : Option Binary64)
  | named (name : String) (arguments : List TypeSyntax)
  | object (members : List (Property TypeSyntax))
  | union (members : List TypeSyntax)
  | intersection (members : List TypeSyntax)

namespace TypeSyntax

def alternatives : TypeSyntax → List TypeSyntax
  | union members => members
  | other => [other]

def parts : TypeSyntax → List TypeSyntax
  | intersection members => members
  | other => [other]

/-- The union of some types, without a union among its members or around a single one. -/
def anyOf (types : List TypeSyntax) : TypeSyntax :=
  match types.flatMap alternatives with
  | [type] => type
  | several => union several

/-- The intersection of some types, without an intersection among its members or around a single
one. -/
def allOf (types : List TypeSyntax) : TypeSyntax :=
  match types.flatMap parts with
  | [type] => type
  | several => intersection several

end TypeSyntax

def nearest? (negative : Bool) (numerator denominator : Nat) : Option Binary64 :=
  (Binary64.ofRatio? negative numerator denominator).map fun value =>
    if value.isZero then Binary64.zero false else value

inductive Lexeme where
  | mark (c : Char)
  | word (text : String)
  | text (value : String)
  | number (value : Option Binary64)
  deriving DecidableEq

def isMark (c : Char) : Bool := "|&()\x7b\x7d<>,;:?".toList.contains c

def isBlank (c : Char) : Bool := c == ' ' || c == '\t' || c == '\r' || c == '\n'

/-- The number of digits with digits on both sides of a point, or without a point. -/
def unsignedOf? (negative : Bool) (text : List Char) : Option (Option Binary64) :=
  let whole := text.takeWhile Char.isDigit
  if whole.isEmpty then none
  else match text.dropWhile Char.isDigit with
    | [] => some (nearest? negative (digitsValue whole) 1)
    | '.' :: fraction =>
      if fraction.isEmpty || !fraction.all Char.isDigit then none
      else some (nearest? negative (digitsValue (whole ++ fraction)) (10 ^ fraction.length))
    | _ => none

def numberOf? : List Char → Option (Option Binary64)
  | '-' :: rest => unsignedOf? true rest
  | text => unsignedOf? false text

def unescaped? (c : Char) : Option Char :=
  if c = 'n' then some '\n'
  else if c = 'r' then some '\r'
  else if c = 't' then some '\t'
  else if c = 'b' then some '\x08'
  else if c = 'f' then some '\x0c'
  else if c = 'v' then some '\x0b'
  else if c = 'u' || c = 'x' || c = '\n' || c = '\r' || c.isDigit then none
  else some c

inductive Lexing where
  | between
  | word (read : List Char)
  | number (read : List Char)
  | text (delimiter : Char) (read : List Char)
  | escape (delimiter : Char) (read : List Char)

namespace Lexing

def start? (c : Char) : Option (List Lexeme × Lexing) :=
  if isBlank c then some ([], between)
  else if isMark c then some ([.mark c], between)
  else if c = '\'' || c = '"' then some ([], text c [])
  else if isIdentifierStart c then some ([], word [c])
  else if c.isDigit || c == '-' then some ([], number [c])
  else none

def finish? : Lexing → Option (List Lexeme)
  | between => some []
  | word read => some [.word (String.ofList read)]
  | number read => (numberOf? read).map fun value => [.number value]
  | text _ _ => none
  | escape _ _ => none

def turn? (state : Lexing) (c : Char) : Option (List Lexeme × Lexing) := do
  let finished ← state.finish?
  let (started, next) ← start? c
  return (finished ++ started, next)

def step? : Lexing → Char → Option (List Lexeme × Lexing)
  | between, c => start? c
  | word read, c =>
    if isIdentifierChar c then some ([], word (read ++ [c])) else (word read).turn? c
  | number read, c =>
    if c.isDigit || c == '.' then some ([], number (read ++ [c])) else (number read).turn? c
  | text delimiter read, c =>
    if c = delimiter then some ([.text (String.ofList read)], between)
    else if c = '\\' then some ([], escape delimiter read)
    else if c = '\n' || c = '\r' then none
    else some ([], text delimiter (read ++ [c]))
  | escape delimiter read, c =>
    (unescaped? c).map fun plain => ([], text delimiter (read ++ [plain]))

def run? (state : Lexing) : List Char → Option (List Lexeme)
  | [] => state.finish?
  | c :: rest => do
    let (read, next) ← state.step? c
    let more ← next.run? rest
    return read ++ more

end Lexing

namespace TypeSyntax

section Lists
variable {α : Type}

def behind (separator : Char) (again : List Lexeme → Option (List α × List Lexeme)) :
    List Lexeme → Option (List α × List Lexeme)
  | .mark c :: rest => if c = separator then again rest else some ([], .mark c :: rest)
  | lexemes => some ([], lexemes)

/-- At least one item and at most `limit`, with the separator between neighbours. -/
def separated (separator : Char) (item : List Lexeme → Option (α × List Lexeme)) :
    Nat → List Lexeme → Option (List α × List Lexeme)
  | 0, _ => none
  | limit + 1, lexemes => do
    let (first, rest) ← item lexemes
    let (others, rest) ← behind separator (separated separator item limit) rest
    return (first :: others, rest)

def closed (closing : Char) (read : α × List Lexeme) : Option (α × List Lexeme) :=
  match read.2 with
  | .mark c :: rest => if c = closing then some (read.1, rest) else none
  | _ => none

end Lists

def readIntersection (operand : List Lexeme → Option (TypeSyntax × List Lexeme))
    (lexemes : List Lexeme) : Option (TypeSyntax × List Lexeme) :=
  (separated '&' operand lexemes.length lexemes).map fun (types, rest) => (allOf types, rest)

def readUnion (operand : List Lexeme → Option (TypeSyntax × List Lexeme)) (lexemes : List Lexeme) :
    Option (TypeSyntax × List Lexeme) :=
  (separated '|' (readIntersection operand) lexemes.length lexemes).map fun (types, rest) =>
    (anyOf types, rest)

def readMember (type : List Lexeme → Option (TypeSyntax × List Lexeme)) :
    List Lexeme → Option (Property TypeSyntax × List Lexeme)
  | .text name :: .mark '?' :: .mark ':' :: rest =>
    (type rest).map fun (type, rest) => (⟨name, type, true⟩, rest)
  | .text name :: .mark ':' :: rest =>
    (type rest).map fun (type, rest) => (⟨name, type, false⟩, rest)
  | _ => none

def keyword? (word : String) : Option TypeSyntax :=
  match word with
  | "string" => some (keyword .string)
  | "number" => some (keyword .number)
  | "boolean" => some (keyword .boolean)
  | "null" => some (keyword .null)
  | "unknown" => some (keyword .unknown)
  | "true" => some (boolean true)
  | "false" => some (boolean false)
  | _ => none

def readOperand : Nat → List Lexeme → Option (TypeSyntax × List Lexeme)
  | 0, _ => none
  | limit + 1, lexemes =>
    let type := readUnion (readOperand limit)
    match lexemes with
    | .mark '(' :: rest => (type rest).bind (closed ')')
    | .mark '\x7b' :: .mark '\x7d' :: rest => some (object [], rest)
    | .mark '\x7b' :: rest =>
      ((separated ';' (readMember type) rest.length rest).bind (closed '\x7d')).map
        fun (members, rest) => (object members, rest)
    | .text value :: rest => some (text value, rest)
    | .number value :: rest => some (number value, rest)
    | .word word :: .mark '<' :: rest =>
      if (keyword? word).isSome then none
      else ((separated ',' type rest.length rest).bind (closed '>')).map
        fun (arguments, rest) => (named word arguments, rest)
    | .word word :: rest => some ((keyword? word).getD (named word []), rest)
    | _ => none

def read? (text : String) : Option TypeSyntax := do
  let lexemes ← Lexing.between.run? text.toList
  match ← readUnion (readOperand lexemes.length) lexemes with
  | (type, []) => return type
  | _ => none

end TypeSyntax

end TypedClient.TypeScript
