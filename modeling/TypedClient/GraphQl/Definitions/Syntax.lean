import TypedClient.Decimal.Shortest
import TypedClient.GraphQl.Definitions.Token

/-!
What GraphQL schema definitions say, and the source text of constant values.
-/

set_option autoImplicit false

namespace TypedClient.GraphQl.Definitions

inductive Value where
  | variable (name : String)
  | integer (value : Int)
  | number (value : Number)
  | text (value : String)
  | boolean (value : Bool)
  | null
  | symbol (name : String)
  | list (items : List Value)
  /-- Members are sorted by name. -/
  | object (members : List (String × Value))
  deriving Repr

inductive TypeUse where
  | named (name : String)
  | list (item : TypeUse)
  | nonNull (type : TypeUse)
  deriving DecidableEq, Repr

structure Directive where
  name : String
  arguments : List (String × Value)
  deriving Repr

structure InputDefinition where
  name : String
  description : Option String
  type : TypeUse
  default : Option Value
  deriving Repr

structure FieldDefinition where
  name : String
  description : Option String
  arguments : List InputDefinition
  type : TypeUse
  directives : List Directive
  deriving Repr

structure EnumValueDefinition where
  name : String
  description : Option String
  directives : List Directive
  deriving Repr

inductive TypeContent where
  | scalar
  | object (interfaces : List String) (fields : List FieldDefinition)
  | interface (interfaces : List String) (fields : List FieldDefinition)
  | union (members : List String)
  | enumeration (values : List EnumValueDefinition)
  | inputObject (fields : List InputDefinition)
  deriving Repr

structure TypeDefinition where
  name : String
  description : Option String
  content : TypeContent
  deriving Repr

structure RootNames where
  query : Option String
  mutation : Option String
  subscription : Option String
  deriving DecidableEq, Repr

def RootNames.none : RootNames := ⟨.none, .none, .none⟩

inductive Definition where
  | roots (names : RootNames)
  | type (definition : TypeDefinition)
  | objectExtension (name : String) (interfaces : List String) (fields : List FieldDefinition)
  /-- Directive definitions and the extensions of other kinds, which no client depends on. -/
  | inert
  deriving Repr

/-- Numbers in default values have the fewest digits that identify them, always positional. -/
def numberLayout : Decimal.Layout := ⟨.up, .none, false⟩

def Number.text : Number → String
  | finite value => numberLayout.render value
  | infinite negative => if negative then "-inf" else "inf"

def isPlain (c : Char) : Bool := 0x20 ≤ c.toNat && c.toNat ≤ 0xFFFF

def paddedCode (code : Nat) : List Char :=
  let digits := (toString code).toList
  List.replicate (4 - digits.length) '0' ++ digits

def escapeValueChar (c : Char) : List Char :=
  if c = '\r' then ['\\', 'r']
  else if c = '\n' then ['\\', 'n']
  else if c = '\t' then ['\\', 't']
  else if c = '"' then ['\\', '"']
  else if c = '\\' then ['\\', '\\']
  else if isPlain c then [c]
  else '\\' :: 'u' :: paddedCode c.toNat

/-- Texts with several lines are written as blocks, unless they have characters to escape. -/
def isBlockText (text : List Char) : Bool :=
  text.contains '\n' && text.all fun c => c == '\n' || c == '\r' || c == '\t' || isPlain c

def escapeQuotes : List Char → List Char
  | [] => []
  | '"' :: '"' :: '"' :: rest => '\\' :: '"' :: '"' :: '"' :: escapeQuotes rest
  | c :: rest => c :: escapeQuotes rest

def blockLine (line : List Char) : List Char :=
  if line.all Text.isBlank then ['\n'] else ' ' :: ' ' :: escapeQuotes line ++ ['\n']

def valueText (text : String) : String :=
  let characters := text.toList
  if isBlockText characters then
    "\"\"\"\n" ++ String.ofList ((Text.lineList characters).flatMap blockLine) ++ "\"\"\""
  else String.ofList ('"' :: characters.flatMap escapeValueChar ++ ['"'])

mutual

def Value.source : Value → String
  | .variable name => "$" ++ name
  | integer value => toString value
  | number value => value.text
  | text value => valueText value
  | boolean value => if value then "true" else "false"
  | null => "null"
  | symbol name => name
  | list items => "[" ++ Text.join ", " (Value.sources items) ++ "]"
  | object members => "\x7b" ++ Text.join ", " (Value.memberSources members) ++ "\x7d"

def Value.sources : List Value → List String
  | [] => []
  | item :: rest => item.source :: Value.sources rest

def Value.memberSources : List (String × Value) → List String
  | [] => []
  | (name, value) :: rest => (name ++ ": " ++ value.source) :: Value.memberSources rest

end

end TypedClient.GraphQl.Definitions
