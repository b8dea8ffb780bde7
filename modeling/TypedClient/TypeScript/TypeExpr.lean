import TypedClient.Decimal.Shortest
import TypedClient.Text.Pieces
import TypedClient.Text.Quoted

/-!
Type expressions of TypeScript and their text. Intersections bind tighter than
unions, so the only parentheses are around a union inside an intersection.
-/

set_option autoImplicit false

namespace TypedClient.TypeScript

open Decimal (Binary64)
open Text (QuoteStyle quote)

inductive Scalar where
  | string
  | number
  | boolean
  | null
  | unknown
  deriving DecidableEq, Repr

inductive Literal where
  | string (value : String)
  | integer (value : Int)
  | number (value : Binary64)
  | infinity (negative : Bool)
  | notANumber
  | boolean (value : Bool)
  | null
  deriving DecidableEq, Repr

structure Property (τ : Type) where
  name : String
  type : τ
  optional : Bool
  deriving DecidableEq, Repr

inductive TypeExpr where
  | scalar (kind : Scalar)
  | array (item : TypeExpr)
  | object (properties : List (Property TypeExpr))
  | reference (name : String)
  | union (members : List TypeExpr)
  | intersection (members : List TypeExpr)
  | literal (value : Literal)
  | record (values : TypeExpr)
  | generic (name : String) (arguments : List TypeExpr)
  deriving Repr

abbrev Field := Property TypeExpr

namespace TypeExpr

def string : TypeExpr := .scalar .string
def number : TypeExpr := .scalar .number
def boolean : TypeExpr := .scalar .boolean
def null : TypeExpr := .scalar .null
def unknown : TypeExpr := .scalar .unknown

instance : Inhabited TypeExpr := ⟨unknown⟩

def isUnion : TypeExpr → Bool
  | .union _ => true
  | _ => false

end TypeExpr

-- Numbers are compared as numbers: both zeros are one, and what is no number is not even
-- the same as itself.
def Literal.same : Literal → Literal → Bool
  | .number left, .number right => left.sameNumber right
  | .notANumber, _ => false
  | left, right => left == right

mutual

/-- Equal structure, with number literals compared as numbers. -/
def TypeExpr.same : TypeExpr → TypeExpr → Bool
  | .scalar left, .scalar right => left == right
  | .array left, .array right => left.same right
  | .object left, .object right => TypeExpr.sameFields left right
  | .reference left, .reference right => left == right
  | .union left, .union right => TypeExpr.sameList left right
  | .intersection left, .intersection right => TypeExpr.sameList left right
  | .literal left, .literal right => left.same right
  | .record left, .record right => left.same right
  | .generic left leftArguments, .generic right rightArguments =>
    left == right && TypeExpr.sameList leftArguments rightArguments
  | _, _ => false

def TypeExpr.sameList : List TypeExpr → List TypeExpr → Bool
  | [], [] => true
  | left :: lefts, right :: rights => left.same right && TypeExpr.sameList lefts rights
  | _, _ => false

def TypeExpr.sameFields : List Field → List Field → Bool
  | [], [] => true
  | ⟨left, leftType, leftOptional⟩ :: lefts, ⟨right, rightType, rightOptional⟩ :: rights =>
    left == right && leftOptional == rightOptional && leftType.same rightType &&
      TypeExpr.sameFields lefts rights
  | _, _ => false

end

def TypeExpr.distinct (members : List TypeExpr) : List TypeExpr :=
  members.foldl (fun kept member => if kept.any (·.same member) then kept else kept ++ [member]) []

/-- The union of the members without repetitions: `unknown` if there are none, and no union around
a single one. -/
def TypeExpr.unionOf (members : List TypeExpr) : TypeExpr :=
  match distinct members with
  | [] => unknown
  | [member] => member
  | several => .union several

/-- Numbers have the fewest digits that identify them, always positional. -/
def numberLayout : Decimal.Layout := ⟨.up, none, false⟩

def Scalar.text : Scalar → String
  | .string => "string"
  | .number => "number"
  | .boolean => "boolean"
  | .null => "null"
  | .unknown => "unknown"

def Literal.text (quotes : QuoteStyle) : Literal → String
  | .string value => quote quotes value
  | .integer value => toString value
  | .number value => numberLayout.render value
  | .infinity negative => if negative then "-inf" else "inf"
  | .notANumber => "NaN"
  | .boolean value => if value then "true" else "false"
  | .null => "null"

def memberKey (quotes : QuoteStyle) (name : String) (optional : Bool) : String :=
  quote quotes name ++ (if optional then "?" else "")

mutual

def TypeExpr.text (quotes : QuoteStyle) : TypeExpr → String
  | .scalar kind => kind.text
  | .array item => "Array<" ++ item.text quotes ++ ">"
  | .object [] => "\x7b\x7d"
  | .object (field :: rest) =>
    "\x7b " ++ Text.join "; " (TypeExpr.fieldTexts quotes (field :: rest)) ++ " \x7d"
  | .reference name => name
  | .union members => Text.join " | " (TypeExpr.texts quotes members)
  | .intersection members => Text.join " & " (TypeExpr.operandTexts quotes members)
  | .literal value => value.text quotes
  | .record values => "Record<string, " ++ values.text quotes ++ ">"
  | .generic name arguments =>
    name ++ "<" ++ Text.join ", " (TypeExpr.texts quotes arguments) ++ ">"

def TypeExpr.texts (quotes : QuoteStyle) : List TypeExpr → List String
  | [] => []
  | type :: rest => type.text quotes :: TypeExpr.texts quotes rest

def TypeExpr.operandTexts (quotes : QuoteStyle) : List TypeExpr → List String
  | [] => []
  | type :: rest =>
    (if type.isUnion then "(" ++ type.text quotes ++ ")" else type.text quotes) ::
      TypeExpr.operandTexts quotes rest

def TypeExpr.fieldTexts (quotes : QuoteStyle) : List Field → List String
  | [] => []
  | ⟨name, type, optional⟩ :: rest =>
    (memberKey quotes name optional ++ ": " ++ type.text quotes) ::
      TypeExpr.fieldTexts quotes rest

end

end TypedClient.TypeScript
