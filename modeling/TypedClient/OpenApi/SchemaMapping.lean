import TypedClient.OpenApi.Reference
import TypedClient.Text.Identifier
import TypedClient.TypeScript.Declaration

/-!
The types that schemas stand for. Every referenced component becomes a named
declaration. Its reference is registered before the component is mapped, so a component
that refers to itself is entered once, and its name is known from then on.
-/

set_option autoImplicit false

namespace TypedClient.OpenApi

open TypeScript (Body Declaration Field TypeExpr)

/-- A reference that has been met. The declaration is absent while its target is being mapped, and
stays so if that fails. -/
structure Registration where
  reference : String
  name : String
  declaration : Option Declaration
  deriving Repr

abbrev Registry := List Registration

namespace Registry

def find? (registry : Registry) (reference : String) : Option Registration :=
  List.find? (·.reference == reference) registry

def register (registry : Registry) (reference name : String) : Registry :=
  registry ++ [⟨reference, name, none⟩]

def declare (registry : Registry) (reference : String) (declaration : Declaration) : Registry :=
  registry.map fun entry =>
    if entry.reference == reference then { entry with declaration := some declaration } else entry

def declarations (registry : Registry) : List Declaration :=
  registry.filterMap (·.declaration)

def declared? (registry : Registry) (name : String) : Option Declaration :=
  (registry.filter (·.name == name)).findSome? (·.declaration)

end Registry

/-- A step of mapping that keeps a state. What was kept when a step fails stays so. -/
abbrev MappingOn (σ : Type) := ExceptT Fault (StateM σ)

abbrev Mapping := MappingOn Registry

section Types
variable {σ : Type}

def literalType : Json.Value → TypeExpr
  | .string text => .literal (.string text)
  | .bool value => .literal (.boolean value)
  | .null => .literal .null
  | .integer value =>
    if Json.Value.isInt64 value then .literal (.integer value)
    -- Beyond 64 bits an integer is a number like those with a fraction.
    else match Decimal.Binary64.ofNat? (decide (value < 0)) value.natAbs with
      | some number => .literal (.number number)
      | none => .number
  | .float value => .literal (.number value)
  | .array _ => .unknown
  | .object _ => .unknown

/-- An object type from its members and the type of all others, open when it has neither. -/
def objectType (fields : List Field) (values : Option TypeExpr) : TypeExpr :=
  match fields, values with
  | [], none => .record .unknown
  | [], some values => .record values
  | fields, none => .object fields
  | fields, some values => .intersection [.object fields, .record values]

def allOfType : List TypeExpr → TypeExpr
  | [member] => member
  | members => .intersection members

def namedType (items object : MappingOn σ TypeExpr) (name : String) : MappingOn σ TypeExpr :=
  match name with
  | "string" => return .string
  | "integer" => return .number
  | "number" => return .number
  | "boolean" => return .boolean
  | "null" => return .null
  | "array" => return .array (← items)
  | "object" => object
  | other => throw (.unknownNode .openApiType other)

def hasSiblingObject {κ : Type} (content : Keywords κ) : Bool :=
  content.properties.isSome || match content.extra with
    | some (.anyValue allowed) => allowed
    | some (.each _) => true
    | none => false

/-- The type that a schema's keywords decide on, given how each group of its parts is mapped. The
first of constant, allOf, anyOf, oneOf, enumeration and type decides. -/
def decidedType {κ : Type} (content : Keywords κ) (items object : MappingOn σ TypeExpr)
    (allOf anyOf oneOf : MappingOn σ (List TypeExpr)) : MappingOn σ TypeExpr :=
  let sibling : MappingOn σ (Option TypeExpr) :=
    if hasSiblingObject content then some <$> object else pure none
  let composed (variants : MappingOn σ (List TypeExpr)) : MappingOn σ TypeExpr := do
    let union := TypeExpr.unionOf (← variants)
    match ← sibling with
    | some object => return .intersection [union, object]
    | none => return union
  if let some value := content.constant then return literalType value
  else if content.allOf.isSome then do
    let members ← allOf
    let object ← sibling
    return allOfType (members ++ object.toList)
  else if content.anyOf.isSome then composed anyOf
  else if content.oneOf.isSome then composed oneOf
  else if let some values := content.enumeration then
    return TypeExpr.unionOf (values.map literalType)
  else match content.types with
    | some (.one name) => namedType items object name
    | some (.several names) => return TypeExpr.unionOf (← names.mapM (namedType items object))
    | none =>
      if content.properties.isSome || content.extra.isSome then object
      else if content.items.isSome then return .array (← items)
      else return .unknown

def keywordsType {κ : Type} (content : Keywords κ) (items object : MappingOn σ TypeExpr)
    (allOf anyOf oneOf : MappingOn σ (List TypeExpr)) : MappingOn σ TypeExpr := do
  let base ← decidedType content items object allOf anyOf oneOf
  if content.nullable then return TypeExpr.unionOf [base, .null] else return base

/-- Whether a property is optional: always on demand, else unless the schema requires it. -/
def isOptional (propsOptional : Bool) (required : List String) (name : String) : Bool :=
  propsOptional || !required.contains name

mutual

/-- The type of a schema. `enter` gives the name of a reference. -/
def Schema.typeWith (propsOptional : Bool) (enter : String → MappingOn σ String) :
    Schema → MappingOn σ TypeExpr
  | .reference target => return .reference (← enter target)
  | .keywords ⟨types, properties, required, items, enumeration, anyOf, oneOf, allOf, extra, constant,
      nullable⟩ =>
    let object : MappingOn σ TypeExpr := do
      let fields ← Schema.fieldsWith? propsOptional enter required properties
      let values ← Schema.valuesWith propsOptional enter extra
      return objectType fields values
    keywordsType
      ⟨types, properties, required, items, enumeration, anyOf, oneOf, allOf, extra, constant, nullable⟩
      (Schema.itemsWith propsOptional enter items) object
      (Schema.typesWith? propsOptional enter allOf) (Schema.typesWith? propsOptional enter anyOf)
      (Schema.typesWith? propsOptional enter oneOf)

def Schema.itemsWith (propsOptional : Bool) (enter : String → MappingOn σ String) :
    Option Schema → MappingOn σ TypeExpr
  | none => return .unknown
  | some schema => schema.typeWith propsOptional enter

def Schema.valuesWith (propsOptional : Bool) (enter : String → MappingOn σ String) :
    Option (ExtraProperties Schema) → MappingOn σ (Option TypeExpr)
  | none => return none
  | some (.anyValue allowed) => return if allowed then some .unknown else none
  | some (.each schema) => some <$> schema.typeWith propsOptional enter

def Schema.typesWith? (propsOptional : Bool) (enter : String → MappingOn σ String) :
    Option (List Schema) → MappingOn σ (List TypeExpr)
  | none => return []
  | some schemas => Schema.typesWith propsOptional enter schemas

def Schema.typesWith (propsOptional : Bool) (enter : String → MappingOn σ String) :
    List Schema → MappingOn σ (List TypeExpr)
  | [] => return []
  | schema :: rest => do
    let type ← schema.typeWith propsOptional enter
    let types ← Schema.typesWith propsOptional enter rest
    return type :: types

def Schema.fieldsWith? (propsOptional : Bool) (enter : String → MappingOn σ String)
    (required : List String) : Option (List (String × Schema)) → MappingOn σ (List Field)
  | none => return []
  | some properties => Schema.fieldsWith propsOptional enter required properties

def Schema.fieldsWith (propsOptional : Bool) (enter : String → MappingOn σ String)
    (required : List String) : List (String × Schema) → MappingOn σ (List Field)
  | [] => return []
  | (name, schema) :: rest => do
    let type ← schema.typeWith propsOptional enter
    let fields ← Schema.fieldsWith propsOptional enter required rest
    return ⟨name, type, isOptional propsOptional required name⟩ :: fields

end

end Types

/-- The declaration of a component: an interface for an object type with members. -/
def componentDeclaration (name : String) : TypeExpr → Declaration
  | .object (field :: fields) => ⟨name, .interface (field :: fields)⟩
  | type => ⟨name, .alias type⟩

def referenceTypeName (reference : String) : String := Text.typeName (referenceName reference)

/-- The name of a reference, with its target mapped on the first visit. First visits nest at most
`limit` deep. -/
def Document.enter (document : Document) (propsOptional : Bool) : Nat → String → Mapping String
  | 0, reference => throw (.unresolvedReference reference)
  | limit + 1, reference => do
    match (← get).find? reference with
    | some entry => return entry.name
    | none =>
      let target ← document.schemaAt reference
      let name := referenceTypeName reference
      modify (·.register reference name)
      let type ← target.typeWith propsOptional (document.enter propsOptional limit)
      modify (·.declare reference (componentDeclaration name type))
      return name

mutual

def Schema.references : Schema → List String
  | .reference target => [target]
  | .keywords ⟨_, properties, _, items, _, anyOf, oneOf, allOf, extra, _, _⟩ =>
    Schema.propertyReferences? properties ++ Schema.itemReferences items ++
      Schema.listReferences? anyOf ++ Schema.listReferences? oneOf ++ Schema.listReferences? allOf ++
      Schema.extraReferences extra

def Schema.itemReferences : Option Schema → List String
  | none => []
  | some schema => schema.references

def Schema.extraReferences : Option (ExtraProperties Schema) → List String
  | none => []
  | some (.anyValue _) => []
  | some (.each schema) => schema.references

def Schema.listReferences? : Option (List Schema) → List String
  | none => []
  | some schemas => Schema.listReferences schemas

def Schema.listReferences : List Schema → List String
  | [] => []
  | schema :: rest => schema.references ++ Schema.listReferences rest

def Schema.propertyReferences? : Option (List (String × Schema)) → List String
  | none => []
  | some properties => Schema.propertyReferences properties

def Schema.propertyReferences : List (String × Schema) → List String
  | [] => []
  | (_, schema) :: rest => schema.references ++ Schema.propertyReferences rest

end

def Document.references (document : Document) : List String :=
  Schema.propertyReferences document.components.schemas ++
    Schema.propertyReferences document.definitions

/-- No chain of first visits is longer than this: all of its references but the first stand in the
document's tables, and no two are equal. -/
def Document.visitLimit (document : Document) : Nat := document.references.length + 2

def Document.typeOf (document : Document) (propsOptional : Bool) (schema : Schema) :
    Mapping TypeExpr :=
  schema.typeWith propsOptional (document.enter propsOptional document.visitLimit)

def Document.typeOf? (document : Document) (propsOptional : Bool) (schema : Option Schema) :
    Mapping TypeExpr :=
  match schema with
  | some schema => document.typeOf propsOptional schema
  | none => return .unknown

mutual

/-- Whether a type is an object type, with the names that were followed. A name is followed once:
`follow` answers for it, given the names before. -/
def objectLikeWith (follow : String → List String → Bool × List String) :
    TypeExpr → List String → Bool × List String
  | .reference name, visited =>
    if visited.contains name then (false, visited) else follow name (name :: visited)
  | .intersection members, visited => allObjectLikeWith follow members visited
  | .object _, visited => (true, visited)
  | .record _, visited => (true, visited)
  | _, visited => (false, visited)

def allObjectLikeWith (follow : String → List String → Bool × List String) :
    List TypeExpr → List String → Bool × List String
  | [], visited => (true, visited)
  | member :: rest, visited =>
    match objectLikeWith follow member visited with
    | (true, visited) => allObjectLikeWith follow rest visited
    | (false, visited) => (false, visited)

end

namespace Registry

/-- Whether a name is declared as an object type, through at most `limit` aliases. -/
def followWithin (registry : Registry) : Nat → String → List String → Bool × List String
  | 0, _, visited => (false, visited)
  | limit + 1, name, visited =>
    match registry.declared? name with
    | none => (false, visited)
    | some declaration => match declaration.body with
      | .interface _ => (true, visited)
      | .alias type => objectLikeWith (registry.followWithin limit) type visited

/-- Whether a type is an object type once names are followed. Every name that leads on is
registered, so there are no more of them than registrations. -/
def isObjectLike (registry : Registry) (type : TypeExpr) : Bool :=
  (objectLikeWith (registry.followWithin (registry.length + 1)) type []).1

end Registry

end TypedClient.OpenApi
