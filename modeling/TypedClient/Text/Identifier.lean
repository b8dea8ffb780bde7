import TypedClient.Text.Pieces
import TypedClient.Text.Uppercase

/-!
Names of the generated code. Any text becomes an identifier: its runs of
identifier characters are joined in camel case, and an underscore goes before a
leading digit or a reserved word.
-/

set_option autoImplicit false

namespace TypedClient.Text

def isIdentifierStart (c : Char) : Bool := c.isAlpha || c == '_' || c == '$'

def isIdentifierChar (c : Char) : Bool := c.isAlphanum || c == '_' || c == '$'

def isIdentifierList : List Char → Bool
  | [] => false
  | c :: rest => isIdentifierStart c && rest.all isIdentifierChar

def isIdentifier (name : String) : Bool := isIdentifierList name.toList

def reservedWords : List String :=
  ["break", "case", "catch", "class", "const", "continue", "debugger", "default", "delete", "do",
   "else", "enum", "export", "extends", "false", "finally", "for", "function", "if", "import",
   "in", "instanceof", "new", "null", "return", "super", "switch", "this", "throw", "true", "try",
   "typeof", "var", "void", "while", "with", "yield", "let", "static", "implements", "interface",
   "package", "private", "protected", "public", "await", "async"]

def isReserved (name : String) : Bool := reservedWords.contains name

def capitalizeList : List Char → List Char
  | [] => []
  | c :: rest => upperCase c ++ rest

def capitalize (text : String) : String := String.ofList (capitalizeList text.toList)

def camelCase : List (List Char) → List Char
  | [] => []
  | word :: words => word ++ words.flatMap capitalizeList

def identifierWords (text : List Char) : List (List Char) :=
  (splitAt (fun c => !isIdentifierChar c) text).filter (fun word => !word.isEmpty)

/-- The identifier for any text; `_empty` when no character of it can be used. -/
def toIdentifier (text : String) : String :=
  match camelCase (identifierWords text.toList) with
  | [] => "_empty"
  | c :: rest =>
    let name := String.ofList (c :: rest)
    if c.isDigit || isReserved name then String.ofList ('_' :: c :: rest) else name

/-- The name of a type. A reserved word needs no underscore here, since its capital tells it
apart. -/
def typeName (text : String) : String :=
  let name := toIdentifier text
  match name.toList with
  | '_' :: rest =>
    if isReserved (String.ofList rest) then String.ofList (capitalizeList rest) else capitalize name
  | _ => capitalize name

end TypedClient.Text
