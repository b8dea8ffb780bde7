import TypedClient.Decimal.Shortest
import TypedClient.Json.Value
import TypedClient.Text.Pieces

/-!
JSON text of values, on one line or indented by two spaces a level.
-/

set_option autoImplicit false

namespace TypedClient.Json

/-- Numbers have the fewest digits that identify them and always a point or an exponent; they are
positional from `0.00001` up to 16 digits. -/
def numberLayout : Decimal.Layout := ⟨.toEven, some (-5, 16), true⟩

def hexDigit (digit : Nat) : Char :=
  if digit < 10 then Char.ofNat ('0'.toNat + digit) else Char.ofNat ('a'.toNat + digit - 10)

def escapeChar (c : Char) : List Char :=
  if c = '"' then ['\\', '"']
  else if c = '\\' then ['\\', '\\']
  else if c = '\x08' then ['\\', 'b']
  else if c = '\x0c' then ['\\', 'f']
  else if c = '\n' then ['\\', 'n']
  else if c = '\r' then ['\\', 'r']
  else if c = '\t' then ['\\', 't']
  else if c.toNat < 0x20 then ['\\', 'u', '0', '0', hexDigit (c.toNat / 16), hexDigit (c.toNat % 16)]
  else [c]

def stringText (text : String) : String :=
  String.ofList ('"' :: text.toList.flatMap escapeChar ++ ['"'])

namespace Value

mutual

def compact : Value → String
  | null => "null"
  | bool value => if value then "true" else "false"
  | integer value => toString value
  | float value => numberLayout.render value
  | string text => stringText text
  | array items => "[" ++ Text.join "," (compactItems items) ++ "]"
  | object members => "\x7b" ++ Text.join "," (compactMembers members) ++ "\x7d"

def compactItems : List Value → List String
  | [] => []
  | item :: rest => item.compact :: compactItems rest

def compactMembers : List (String × Value) → List String
  | [] => []
  | (key, value) :: rest => (stringText key ++ ":" ++ value.compact) :: compactMembers rest

end

def margin (level : Nat) : String := String.ofList (List.replicate (2 * level) ' ')

def bracketed (opening closing : String) (level : Nat) (pieces : List String) : String :=
  match pieces with
  | [] => opening ++ closing
  | _ =>
    opening ++ "\n" ++ margin (level + 1) ++ Text.join (",\n" ++ margin (level + 1)) pieces ++
      "\n" ++ margin level ++ closing

mutual

def pretty (level : Nat) : Value → String
  | null => "null"
  | bool value => if value then "true" else "false"
  | integer value => toString value
  | float value => numberLayout.render value
  | string text => stringText text
  | array items => bracketed "[" "]" level (prettyItems (level + 1) items)
  | object members => bracketed "\x7b" "\x7d" level (prettyMembers (level + 1) members)

def prettyItems (level : Nat) : List Value → List String
  | [] => []
  | item :: rest => item.pretty level :: prettyItems level rest

def prettyMembers (level : Nat) : List (String × Value) → List String
  | [] => []
  | (key, value) :: rest =>
    (stringText key ++ ": " ++ value.pretty level) :: prettyMembers level rest

end

end Value

end TypedClient.Json
