/-!
GraphQL schemas in the form in which services describe themselves: a list of named types,
and references to types through lists and non-null wrappers.
-/

set_option autoImplicit false

namespace TypedClient.GraphQl

inductive TypeKind where
  | scalar
  | object
  | interface
  | union
  | enumeration
  | inputObject
  | list
  | nonNull
  deriving DecidableEq, Repr

namespace TypeKind

def all : List TypeKind :=
  [scalar, object, interface, union, enumeration, inputObject, list, nonNull]

def text : TypeKind → String
  | scalar => "SCALAR"
  | object => "OBJECT"
  | interface => "INTERFACE"
  | union => "UNION"
  | enumeration => "ENUM"
  | inputObject => "INPUT_OBJECT"
  | list => "LIST"
  | nonNull => "NON_NULL"

def ofWord? (word : String) : Option TypeKind := all.find? (·.text == word)

end TypeKind

/-- A use of a type. Every layer has a kind and may have a name; the outer ones wrap another. -/
inductive TypeRef where
  | leaf (kind : TypeKind) (name : Option String)
  | wrapper (kind : TypeKind) (name : Option String) (inner : TypeRef)
  deriving DecidableEq, Repr

namespace TypeRef

def kind : TypeRef → TypeKind
  | leaf kind _ => kind
  | wrapper kind _ _ => kind

def name? : TypeRef → Option String
  | leaf _ name => name
  | wrapper _ name _ => name

def name (type : TypeRef) : String := type.name?.getD ""

def leafName : TypeRef → String
  | leaf _ name => name.getD ""
  | wrapper _ _ inner => inner.leafName

end TypeRef

structure InputValue where
  name : String
  description : Option String
  type : TypeRef
  /-- The value for when there is none, as source text. -/
  default : Option String
  deriving DecidableEq, Repr

structure Field where
  name : String
  description : Option String
  arguments : List InputValue
  type : TypeRef
  deprecated : Bool
  reason : Option String
  deriving DecidableEq, Repr

structure EnumValue where
  name : String
  description : Option String
  deprecated : Bool
  reason : Option String
  deriving DecidableEq, Repr

/-- A type with a name. Which of its lists mean something depends on its kind. -/
structure NamedType where
  kind : TypeKind
  name : String
  description : Option String
  fields : Option (List Field)
  inputFields : Option (List InputValue)
  interfaces : Option (List TypeRef)
  enumValues : Option (List EnumValue)
  possibleTypes : Option (List TypeRef)
  deriving DecidableEq, Repr

def NamedType.bare (kind : TypeKind) (name : String) (description : Option String) : NamedType where
  kind := kind
  name := name
  description := description
  fields := none
  inputFields := none
  interfaces := none
  enumValues := none
  possibleTypes := none

structure Schema where
  queryType : Option String
  mutationType : Option String
  subscriptionType : Option String
  types : List NamedType
  deriving DecidableEq, Repr

/-- Names of introspection's own types begin with two underscores. -/
def isOwnName (name : String) : Bool :=
  match name.toList with
  | '_' :: '_' :: _ => true
  | _ => false

def Schema.userTypes (schema : Schema) : List NamedType :=
  schema.types.filter fun type => !isOwnName type.name

def builtinScalars : List String := ["String", "Int", "Float", "Boolean", "ID"]

def standardReason : String := "No longer supported"

end TypedClient.GraphQl
