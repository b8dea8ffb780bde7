import TypedClient.Json.Value

/-!
OpenAPI and Swagger documents, as far as a client's types depend on them. Tables keep
the order of the document.
-/

set_option autoImplicit false

namespace TypedClient.OpenApi

inductive TypeNames where
  | one (name : String)
  | several (names : List String)
  deriving DecidableEq, Repr

inductive ExtraProperties (σ : Type) where
  | anyValue (allowed : Bool)
  | each (values : σ)
  deriving Repr

structure Keywords (σ : Type) where
  types : Option TypeNames
  properties : Option (List (String × σ))
  required : List String
  items : Option σ
  enumeration : Option (List Json.Value)
  anyOf : Option (List σ)
  oneOf : Option (List σ)
  allOf : Option (List σ)
  extra : Option (ExtraProperties σ)
  constant : Option Json.Value
  nullable : Bool
  deriving Repr

/-- A schema. What stands beside a reference has no meaning and is not kept. -/
inductive Schema where
  | reference (target : String)
  | keywords (content : Keywords Schema)
  deriving Repr

inductive RefOr (α : Type) where
  | reference (target : String)
  | item (value : α)
  deriving Repr

inductive Method where
  | get
  | put
  | post
  | delete
  | options
  | head
  | patch
  | trace
  deriving DecidableEq, Repr

namespace Method

def all : List Method := [get, put, post, delete, options, head, patch, trace]

def text : Method → String
  | get => "get"
  | put => "put"
  | post => "post"
  | delete => "delete"
  | options => "options"
  | head => "head"
  | patch => "patch"
  | trace => "trace"

def upperText : Method → String
  | get => "GET"
  | put => "PUT"
  | post => "POST"
  | delete => "DELETE"
  | options => "OPTIONS"
  | head => "HEAD"
  | patch => "PATCH"
  | trace => "TRACE"

def ofKey? (key : String) : Option Method := all.find? (·.text == key)

end Method

inductive Location where
  | path
  | query
  | header
  | cookie
  deriving DecidableEq, Repr

def Location.text : Location → String
  | path => "path"
  | query => "query"
  | header => "header"
  | cookie => "cookie"

def Location.ofWord? (word : String) : Option Location :=
  [path, query, header, cookie].find? (·.text == word)

structure Parameter where
  name : String
  location : Location
  required : Bool
  schema : Option Schema
  deriving Repr

/-- Path parameters are required whatever they declare. -/
def Parameter.isRequired (parameter : Parameter) : Bool :=
  parameter.required || parameter.location == .path

abbrev Content := List (String × Option Schema)

structure RequestBody where
  required : Bool
  content : Content
  deriving Repr

structure Response where
  description : Option String
  content : Content
  /-- The schema of a response that has no media types. -/
  schema : Option Schema
  deriving Repr

/-- The first schema of a media type, else the response's own. -/
def Response.firstSchema? (response : Response) : Option Schema :=
  (response.content.findSome? (·.2)) <|> response.schema

structure PathOperation where
  method : Method
  operationId : Option String
  parameters : List (RefOr Parameter)
  requestBody : Option (RefOr RequestBody)
  responses : List (String × RefOr Response)
  deriving Repr

structure PathItem where
  /-- Parameters of every operation of the path. -/
  parameters : List (RefOr Parameter)
  operations : List PathOperation
  deriving Repr

structure Components where
  schemas : List (String × Schema)
  parameters : List (String × Parameter)
  requestBodies : List (String × RequestBody)
  responses : List (String × Response)
  deriving Repr

def Components.empty : Components := ⟨[], [], [], []⟩

structure Document where
  paths : List (String × PathItem)
  components : Components
  /-- Schemas outside the components, as in older documents. -/
  definitions : List (String × Schema)
  deriving Repr

end TypedClient.OpenApi
