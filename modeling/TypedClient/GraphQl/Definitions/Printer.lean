import TypedClient.GraphQl.Introspection
import TypedClient.Page

/-!
Schema definitions for a GraphQL schema. Built-in scalars and introspection's own types
are left out; a schema block comes first when a root has another name than usual.
-/

set_option autoImplicit false

namespace TypedClient.GraphQl

def escapeTextChar (c : Char) : List Char :=
  if c = '\\' then ['\\', '\\']
  else if c = '"' then ['\\', '"']
  else if c = '\n' then ['\\', 'n']
  else [c]

def textLiteral (text : String) : String :=
  String.ofList ('"' :: text.toList.flatMap escapeTextChar ++ ['"'])

def blockMark : String := "\"\"\""

def escapeBlock : List Char → List Char
  | [] => []
  | '"' :: '"' :: '"' :: rest => '\\' :: '"' :: '"' :: '"' :: escapeBlock rest
  | c :: rest => c :: escapeBlock rest

def descriptionSteps (description : Option String) : List Step :=
  match description with
  | none => []
  | some text =>
    if text.isEmpty then []
    else if text.toList.contains '\n' then
      [.line blockMark, .line (String.ofList (escapeBlock text.toList)), .line blockMark]
    else [.line (textLiteral text)]

/-- The directive of what is deprecated, with its reason unless it is the standard one. -/
def deprecationText (deprecated : Bool) (reason : Option String) : String :=
  if !deprecated then ""
  else match reason with
    | none => " @deprecated"
    | some text =>
      if text = standardReason then " @deprecated"
      else " @deprecated(reason: " ++ textLiteral text ++ ")"

def TypeRef.text : TypeRef → String
  | leaf _ name => name.getD ""
  | wrapper .nonNull _ inner => inner.text ++ "!"
  | wrapper .list _ inner => "[" ++ inner.text ++ "]"
  | wrapper _ name _ => name.getD ""

def InputValue.text (value : InputValue) : String :=
  value.name ++ ": " ++ value.type.text ++ match value.default with
    | none => ""
    | some default => " = " ++ default

def argumentsText (arguments : List InputValue) : String :=
  if arguments.isEmpty then ""
  else "(" ++ Text.join ", " (arguments.map InputValue.text) ++ ")"

def Field.text (field : Field) : String :=
  field.name ++ argumentsText field.arguments ++ ": " ++ field.type.text ++
    deprecationText field.deprecated field.reason

def EnumValue.text (value : EnumValue) : String :=
  value.name ++ deprecationText value.deprecated value.reason

def Field.steps (field : Field) : List Step :=
  descriptionSteps field.description ++ [.line field.text]

def EnumValue.steps (value : EnumValue) : List Step :=
  descriptionSteps value.description ++ [.line value.text]

def InputValue.steps (value : InputValue) : List Step :=
  descriptionSteps value.description ++ [.line value.text]

def implementsText (interfaces : List TypeRef) : String :=
  if interfaces.isEmpty then ""
  else " implements " ++ Text.join " & " (interfaces.map TypeRef.name)

def NamedType.bodySteps (type : NamedType) : List Step :=
  let withFields (keyword : String) : List Step :=
    .openBlock (keyword ++ " " ++ type.name ++ implementsText (type.interfaces.getD [])) ::
      ((type.fields.getD []).flatMap Field.steps ++ [.closeBlock ""])
  match type.kind with
  | .scalar => [.line ("scalar " ++ type.name)]
  | .object => withFields "type"
  | .interface => withFields "interface"
  | .union =>
    [.line ("union " ++ type.name ++ " = " ++
      Text.join " | " ((type.possibleTypes.getD []).map TypeRef.name))]
  | .enumeration =>
    .openBlock ("enum " ++ type.name) ::
      ((type.enumValues.getD []).flatMap EnumValue.steps ++ [.closeBlock ""])
  | .inputObject =>
    .openBlock ("input " ++ type.name) ::
      ((type.inputFields.getD []).flatMap InputValue.steps ++ [.closeBlock ""])
  | .list => []
  | .nonNull => []

def NamedType.isBuiltin (type : NamedType) : Bool :=
  type.kind == .scalar && builtinScalars.contains type.name

def NamedType.steps (type : NamedType) : List Step :=
  .blank :: descriptionSteps type.description ++ type.bodySteps

namespace Schema

def roots (schema : Schema) : List (String × Option String × String) :=
  [("query", schema.queryType, "Query"), ("mutation", schema.mutationType, "Mutation"),
   ("subscription", schema.subscriptionType, "Subscription")]

def hasUnusualRoot (schema : Schema) : Bool :=
  schema.roots.any fun (_, root, usual) => root.any (· != usual)

def rootSteps (schema : Schema) : List Step :=
  schema.roots.filterMap fun (operation, root, _) =>
    root.map fun name => .line (operation ++ ": " ++ name)

def steps (schema : Schema) : List Step :=
  (if schema.hasUnusualRoot then
    .openBlock "schema" :: (schema.rootSteps ++ [.closeBlock ""]) else []) ++
    (schema.userTypes.filter fun type => !type.isBuiltin).flatMap NamedType.steps

def definitions (schema : Schema) : String := Page.render Style.standard schema.steps

end Schema

end TypedClient.GraphQl
