import TypedClient.Fault
import TypedClient.GraphQl.Introspection
import TypedClient.Text.Identifier
import TypedClient.TypeScript.Declaration

/-!
The interfaces for the object types of a GraphQL schema. A query selects what it wants,
so every member is optional and non-null wrappers change nothing.
-/

set_option autoImplicit false

namespace TypedClient.GraphQl

open Text (capitalize)
open TypeScript (Declaration TypeExpr)

def scalarType (name : String) : Except Fault TypeExpr :=
  if ["String", "ID", "Date", "DateTime"].contains name then .ok .string
  else if ["Int", "Float"].contains name then .ok .number
  else if name = "Boolean" then .ok .boolean
  else .error (.unknownNode .graphQlScalar name)

def leafType (kind : TypeKind) (name : String) : Except Fault TypeExpr :=
  match kind with
  | .scalar => scalarType name
  | .object => .ok (.reference (capitalize name))
  | .list => .error (.missingWrapped kind.text)
  | .nonNull => .error (.missingWrapped kind.text)
  | _ => .error (.unknownNode .graphQlKind kind.text)

def TypeRef.type : TypeRef → Except Fault TypeExpr
  | leaf kind name => leafType kind (name.getD "")
  | wrapper .list _ inner => inner.type.map .array
  | wrapper .nonNull _ inner => inner.type
  | wrapper kind name _ => leafType kind (name.getD "")

def skippedObjects : List String := ["Query", "Mutation", "Subscription", "Boolean", "String"]

def NamedType.hasInterface (type : NamedType) : Bool :=
  type.kind == .object && !skippedObjects.contains type.name

def firstOfEach {α : Type} (key : α → String) (items : List α) : List α :=
  items.foldl (fun kept item =>
    if kept.any (fun other => key other == key item) then kept else kept ++ [item]) []

def Schema.interfaceTypes (schema : Schema) : List NamedType :=
  firstOfEach (fun type => capitalize type.name) (schema.userTypes.filter (·.hasInterface))

def Field.property (field : Field) : Except Fault TypeScript.Field := do
  return ⟨field.name, ← field.type.type, true⟩

def NamedType.declaration (type : NamedType) : Except Fault Declaration := do
  let fields ← (firstOfEach Field.name (type.fields.getD [])).mapM Field.property
  return ⟨capitalize type.name, .interface fields⟩

def Schema.declarations (schema : Schema) : Except Fault (List Declaration) :=
  schema.interfaceTypes.mapM NamedType.declaration

end TypedClient.GraphQl
