import TypedClient.GraphQl.Definitions.Syntax

/-!
The grammar of GraphQL schema definitions. A reader takes tokens from the front; one token
is always enough to tell how to go on, so no reader ever goes back.
-/

set_option autoImplicit false

namespace TypedClient.GraphQl.Definitions

abbrev Reader := StateT (List Token) Option

namespace Reader

def peek? : Reader (Option Token) := fun tokens => some (tokens.head?, tokens)

/-- The number of tokens that are left, which bounds every repetition. -/
def remaining : Reader Nat := fun tokens => some (tokens.length, tokens)

def skip (c : Char) : Reader Bool := fun tokens =>
  match tokens with
  | .mark d :: rest => some (if c = d then (true, rest) else (false, tokens))
  | _ => some (false, tokens)

def mark (c : Char) : Reader Unit := fun tokens =>
  match tokens with
  | .mark d :: rest => if c = d then some ((), rest) else none
  | _ => none

def name : Reader String := fun tokens =>
  match tokens with
  | .name text :: rest => some (text, rest)
  | _ => none

def skipWord (word : String) : Reader Bool := fun tokens =>
  match tokens with
  | .name text :: rest => some (if text = word then (true, rest) else (false, tokens))
  | _ => some (false, tokens)

def word (word : String) : Reader Unit := fun tokens =>
  match tokens with
  | .name text :: rest => if text = word then some ((), rest) else none
  | _ => none

def description : Reader (Option String) := fun tokens =>
  match tokens with
  | .text value :: rest => some (some value, rest)
  | _ => some (none, tokens)

/-- Items up to a closing mark, which is taken too. -/
def untilMark {α : Type} (closing : Char) (item : Reader α) : Nat → Reader (List α)
  | 0 => failure
  | limit + 1 => do
    if ← skip closing then return []
    let first ← item
    return first :: (← untilMark closing item limit)

def enclosed {α : Type} (opening closing : Char) (item : Reader α) : Reader (List α) := do
  mark opening
  untilMark closing item ((← remaining) + 1)

/-- At least one item between marks, or nothing at all when the first mark is not next. -/
def group {α : Type} (opening closing : Char) (item : Reader α) : Reader (List α) := do
  if ← skip opening then
    let first ← item
    return first :: (← untilMark closing item ((← remaining) + 1))
  else return []

def following {α : Type} (separator : Char) (item : Reader α) : Nat → Reader (List α)
  | 0 => return []
  | limit + 1 => do
    if ← skip separator then
      let first ← item
      return first :: (← following separator item limit)
    else return []

/-- At least one item, with the separator between neighbours and perhaps in front. -/
def separated {α : Type} (separator : Char) (item : Reader α) : Reader (List α) := do
  let _ ← skip separator
  let first ← item
  return first :: (← following separator item (← remaining))

end Reader

open Reader

/-- Members sorted by name; the last one of a name counts. -/
def insertMember (name : String) (value : Value) : List (String × Value) → List (String × Value)
  | [] => [(name, value)]
  | (other, old) :: rest =>
    if name = other then (name, value) :: rest
    else if name < other then (name, value) :: (other, old) :: rest
    else (other, old) :: insertMember name value rest

def sortedMembers (members : List (String × Value)) : List (String × Value) :=
  members.foldl (fun sorted (name, value) => insertMember name value sorted) []

def symbolValue (name : String) : Value :=
  if name = "true" then .boolean true
  else if name = "false" then .boolean false
  else if name = "null" then .null
  else .symbol name

def readValue (withVariables : Bool) : Nat → Reader Value
  | 0 => failure
  | limit + 1 => do
    let item := readValue withVariables limit
    match ← peek? with
    | some (.name text) => do
      let _ ← name
      return symbolValue text
    | some (.mark '[') => return .list (← enclosed '[' ']' item)
    | some (.mark '{') =>
      let members ← enclosed '{' '}' do
        let name ← name
        mark ':'
        return (name, ← item)
      return .object (sortedMembers members)
    | some (.mark '$') =>
      if withVariables then
        mark '$'
        return .variable (← name)
      else failure
    | _ => fun tokens =>
      match tokens with
      | .integer value :: rest => some (.integer value, rest)
      | .number value :: rest => some (.number value, rest)
      | .text value :: rest => some (.text value, rest)
      | _ => none

def readType : Nat → Reader TypeUse
  | 0 => failure
  | limit + 1 => do
    let type ←
      if ← skip '[' then do
        let item ← readType limit
        mark ']'
        pure (TypeUse.list item)
      else pure (TypeUse.named (← name))
    if ← skip '!' then return .nonNull type else return type

def type : Reader TypeUse := do readType ((← remaining) + 1)

def constant : Reader Value := do readValue false ((← remaining) + 1)

def argument : Reader (String × Value) := do
  let name ← name
  mark ':'
  return (name, ← readValue true ((← remaining) + 1))

def directive : Reader Directive := do
  let name ← name
  return ⟨name, ← group '(' ')' argument⟩

def directives : Reader (List Directive) := do following '@' directive (← remaining)

def inputDefinition : Reader InputDefinition := do
  let description ← description
  let name ← name
  mark ':'
  let type ← type
  let default ← if ← skip '=' then some <$> constant else pure none
  let _ ← directives
  return ⟨name, description, type, default⟩

def fieldDefinition : Reader FieldDefinition := do
  let description ← description
  let name ← name
  let arguments ← group '(' ')' inputDefinition
  mark ':'
  let type ← type
  return ⟨name, description, arguments, type, ← directives⟩

def enumValueDefinition : Reader EnumValueDefinition := do
  let description ← description
  let name ← name
  return ⟨name, description, ← directives⟩

def interfaces : Reader (List String) := do
  if ← skipWord "implements" then separated '&' name else return []

def fields : Reader (List FieldDefinition) := group '{' '}' fieldDefinition

def unionMembers : Reader (List String) := do
  if ← skip '=' then separated '|' name else return []

def enumValues : Reader (List EnumValueDefinition) := group '{' '}' enumValueDefinition

def inputFields : Reader (List InputDefinition) := group '{' '}' inputDefinition

/-- One entry of a schema block; no operation has two. -/
def rootEntry (names : RootNames) : Reader RootNames := do
  let operation ← name
  mark ':'
  let type ← name
  match operation with
  | "query" => if names.query.isSome then failure else return { names with query := some type }
  | "mutation" =>
    if names.mutation.isSome then failure else return { names with mutation := some type }
  | "subscription" =>
    if names.subscription.isSome then failure else return { names with subscription := some type }
  | _ => failure

def rootEntries : Nat → RootNames → Reader RootNames
  | 0, _ => failure
  | limit + 1, names => do
    if ← skip '}' then return names
    rootEntries limit (← rootEntry names)

def schemaBlock : Reader Definition := do
  let _ ← directives
  mark '{'
  return .roots (← rootEntries ((← remaining) + 1) RootNames.none)

def directivePlaces : List String :=
  ["QUERY", "MUTATION", "SUBSCRIPTION", "FIELD", "FRAGMENT_DEFINITION", "FRAGMENT_SPREAD",
   "INLINE_FRAGMENT", "VARIABLE_DEFINITION", "SCHEMA", "SCALAR", "OBJECT", "FIELD_DEFINITION",
   "ARGUMENT_DEFINITION", "INTERFACE", "UNION", "ENUM", "ENUM_VALUE", "INPUT_OBJECT",
   "INPUT_FIELD_DEFINITION"]

def directivePlace : Reader Unit := do
  let place ← name
  if directivePlaces.contains place then return () else failure

def directivePlacesUsed : Reader Unit := do
  match ← peek? with
  | some (.name _) | some (.mark '|') => discard (separated '|' directivePlace)
  | _ => return ()

def directiveDefinition : Reader Definition := do
  mark '@'
  let _ ← name
  let _ ← group '(' ')' inputDefinition
  let _ ← skipWord "repeatable"
  word "on"
  directivePlacesUsed
  return .inert

def typeContent? (keyword : String) : Option (Reader (String × TypeContent)) :=
  match keyword with
  | "scalar" => some do
    let name ← name
    let _ ← directives
    return (name, .scalar)
  | "type" => some do
    let name ← name
    let interfaces ← interfaces
    let _ ← directives
    return (name, .object interfaces (← fields))
  | "interface" => some do
    let name ← name
    let interfaces ← interfaces
    let _ ← directives
    return (name, .interface interfaces (← fields))
  | "union" => some do
    let name ← name
    let _ ← directives
    return (name, .union (← unionMembers))
  | "enum" => some do
    let name ← name
    let _ ← directives
    return (name, .enumeration (← enumValues))
  | "input" => some do
    let name ← name
    let _ ← directives
    return (name, .inputObject (← inputFields))
  | _ => none

/-- An extension adds something: a directive, or some of the members that its kind may have. -/
def extension : Reader Definition := do
  let keyword ← name
  let name ← name
  match keyword with
  | "scalar" =>
    let added ← directives
    if added.isEmpty then failure else return .inert
  | "type" =>
    let interfaces ← interfaces
    let added ← directives
    let fields ← fields
    if interfaces.isEmpty && added.isEmpty && fields.isEmpty then failure
    else return .objectExtension name interfaces fields
  | "interface" =>
    let _ ← interfaces
    let added ← directives
    let fields ← fields
    if added.isEmpty && fields.isEmpty then failure else return .inert
  | "union" =>
    let added ← directives
    let members ← unionMembers
    if added.isEmpty && members.isEmpty then failure else return .inert
  | "enum" =>
    let added ← directives
    let values ← enumValues
    if added.isEmpty && values.isEmpty then failure else return .inert
  | "input" =>
    let added ← directives
    let fields ← inputFields
    if added.isEmpty && fields.isEmpty then failure else return .inert
  | _ => failure

def describedDefinition (description : Option String) : Reader Definition := do
  let keyword ← name
  if keyword = "directive" then directiveDefinition
  else match typeContent? keyword with
    | some content =>
      let (name, content) ← content
      return .type ⟨name, description, content⟩
    | none => failure

def definition : Reader Definition := do
  match ← description with
  | some text => describedDefinition (some text)
  | none =>
    if ← skipWord "schema" then schemaBlock
    else if ← skipWord "extend" then extension
    else describedDefinition none

def definitionsWithin : Nat → List Token → Option (List Definition)
  | _, [] => some []
  | 0, _ => none
  | limit + 1, tokens => do
    let (first, rest) ← definition tokens
    return first :: (← definitionsWithin limit rest)

def read? (text : String) : Option (List Definition) := do
  let tokens ← tokens? text
  if tokens.isEmpty then none else definitionsWithin tokens.length tokens

end TypedClient.GraphQl.Definitions
