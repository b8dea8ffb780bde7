import TypedClient.Fault
import TypedClient.GraphQl.Definitions.Reader
import TypedClient.GraphQl.Introspection

/-!
The GraphQL schema that definitions describe. Each name that is used must be defined
somewhere or built in; built-in scalars come after the defined types.
-/

set_option autoImplicit false

namespace TypedClient.GraphQl.Definitions

def TypeContent.kind : TypeContent → TypeKind
  | scalar => .scalar
  | object _ _ => .object
  | interface _ _ => .interface
  | union _ => .union
  | enumeration _ => .enumeration
  | inputObject _ => .inputObject

/-- The kinds of type names; the first entry of a name counts. -/
abbrev Kinds := List (String × TypeKind)

def Definition.kindEntry? : Definition → Option (String × TypeKind)
  | type definition => some (definition.name, definition.content.kind)
  | _ => none

/-- The kinds of all defined types, the last definition of a name first, and of built-in scalars. -/
def kindsOf (definitions : List Definition) : Kinds :=
  (definitions.filterMap Definition.kindEntry?).reverse ++
    builtinScalars.map fun name => (name, .scalar)

namespace Kinds

def leaf (kinds : Kinds) (name : String) : Except Fault TypeRef :=
  match kinds.lookup name with
  | some kind => .ok (.leaf kind (some name))
  | none => .error (.undefinedType name)

def typeRef (kinds : Kinds) : TypeUse → Except Fault TypeRef
  | .named name => kinds.leaf name
  | .list item => (kinds.typeRef item).map (.wrapper .list none)
  | .nonNull type => (kinds.typeRef type).map (.wrapper .nonNull none)

def inputValue (kinds : Kinds) (input : InputDefinition) : Except Fault InputValue := do
  return ⟨input.name, input.description, ← kinds.typeRef input.type, input.default.map Value.source⟩

end Kinds

def reasonText? (argument : String × Value) : Option String :=
  match argument with
  | ("reason", .text reason) => some reason
  | _ => none

def deprecation? (directives : List Directive) : Option String :=
  (directives.find? (·.name == "deprecated")).map fun directive =>
    (directive.arguments.findSome? reasonText?).getD standardReason

namespace Kinds

def field (kinds : Kinds) (definition : FieldDefinition) : Except Fault Field := do
  let arguments ← definition.arguments.mapM kinds.inputValue
  let type ← kinds.typeRef definition.type
  let reason := deprecation? definition.directives
  return ⟨definition.name, definition.description, arguments, type, reason.isSome, reason⟩

def enumValue (definition : EnumValueDefinition) : EnumValue :=
  let reason := deprecation? definition.directives
  ⟨definition.name, definition.description, reason.isSome, reason⟩

def namedType (kinds : Kinds) (definition : TypeDefinition) : Except Fault NamedType := do
  let bare := NamedType.bare definition.content.kind definition.name definition.description
  match definition.content with
  | .scalar => return bare
  | .object interfaces fields | .interface interfaces fields =>
    let fields ← fields.mapM kinds.field
    let interfaces ← interfaces.mapM kinds.leaf
    return { bare with fields := some fields, interfaces := some interfaces }
  | .union members => return { bare with possibleTypes := some (← members.mapM kinds.leaf) }
  | .enumeration values => return { bare with enumValues := some (values.map enumValue) }
  | .inputObject fields => return { bare with inputFields := some (← fields.mapM kinds.inputValue) }

end Kinds

def extended (fields : List Field) (interfaces : List TypeRef) (type : NamedType) : NamedType :=
  { type with
    fields := some (type.fields.getD [] ++ fields)
    interfaces := some (type.interfaces.getD [] ++ interfaces) }

def changeFirst (name : String) (change : NamedType → NamedType) : List NamedType → List NamedType
  | [] => []
  | type :: rest =>
    if type.name = name then change type :: rest else type :: changeFirst name change rest

structure Progress where
  roots : RootNames
  types : List NamedType

def Progress.start : Progress := ⟨RootNames.none, []⟩

def Progress.has (progress : Progress) (name : String) : Bool :=
  progress.types.any (·.name == name)

/-- Takes in one definition. Only a type that came before can be extended. -/
def Progress.add (kinds : Kinds) (progress : Progress) : Definition → Except Fault Progress
  | .roots names => .ok { progress with roots := names }
  | .type definition => do
    return { progress with types := progress.types ++ [← kinds.namedType definition] }
  | .objectExtension name interfaces fields =>
    if progress.has name then do
      let fields ← fields.mapM kinds.field
      let interfaces ← interfaces.mapM kinds.leaf
      return { progress with types := changeFirst name (extended fields interfaces) progress.types }
    else .error (.undefinedExtension name)
  | .inert => .ok progress

def NamedType.leafNames (type : NamedType) : List String :=
  ((type.fields.getD []).flatMap fun field =>
    field.type.leafName :: field.arguments.map (·.type.leafName)) ++
    (type.inputFields.getD []).map (·.type.leafName)

def alwaysPresent : List String := ["String", "Boolean"]

def impliedScalars (types : List NamedType) : List NamedType :=
  let used := types.flatMap NamedType.leafNames
  let implied := builtinScalars.filter fun name =>
    !(types.any (·.name == name)) && (alwaysPresent.contains name || used.contains name)
  implied.map fun name => NamedType.bare .scalar name none

/-- A root by its explicit name, else by its usual name if there is such a type. -/
def rootName? (types : List NamedType) (explicit : Option String) (usual : String) :
    Option String :=
  match explicit with
  | some name => some name
  | none => if types.any (·.name == usual) then some usual else none

def schemaOf (definitions : List Definition) : Except Fault Schema := do
  let kinds := kindsOf definitions
  let progress ← definitions.foldlM (Progress.add kinds) Progress.start
  let types := progress.types ++ impliedScalars progress.types
  return {
    queryType := rootName? types progress.roots.query "Query"
    mutationType := rootName? types progress.roots.mutation "Mutation"
    subscriptionType := rootName? types progress.roots.subscription "Subscription"
    types }

end Definitions

def Schema.ofDefinitions (text : String) : Except Fault Schema :=
  match Definitions.read? text with
  | some definitions => Definitions.schemaOf definitions
  | none => .error .invalidDefinitions

end TypedClient.GraphQl
