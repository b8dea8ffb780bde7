import TypedClient.Fault
import TypedClient.GraphQl.Decoding
import TypedClient.GraphQl.Definitions.Resolution
import TypedClient.OpenApi.Decoding

/-!
The description of a service, in either of the two forms that clients are made from.
-/

set_option autoImplicit false

namespace TypedClient

open Json (Value)

inductive SchemaKind where
  | openApi
  | graphQl
  deriving DecidableEq, Repr

def SchemaKind.text : SchemaKind → String
  | openApi => "openapi"
  | graphQl => "graphql"

inductive ServiceSchema where
  | openApi (document : OpenApi.Document)
  | graphQl (schema : GraphQl.Schema)
  deriving Repr

namespace ServiceSchema

def kind : ServiceSchema → SchemaKind
  | openApi _ => .openApi
  | graphQl _ => .graphQl

def introspectionKey : String := "__schema"

/-- The introspection result of a document: its own, else that of its data. -/
def introspection? (document : Value) : Option Value :=
  document.get? introspectionKey <|> do
    let data ← document.get? "data"
    data.get? introspectionKey

def openApiKeys : List String := ["openapi", "swagger", "paths"]

def ofValue (document : Value) : Except Fault ServiceSchema :=
  match document with
  | .object members =>
    -- A result of introspection counts whatever stands beside it.
    match introspection? document with
    | some result => match GraphQl.Schema.decoder result with
      | some schema => .ok (graphQl schema)
      | none => .error .invalidIntrospection
    | none =>
      if openApiKeys.any fun key => (members.lookup key).isSome then
        match OpenApi.Document.decoder document with
        | some found => .ok (openApi found)
        | none => .error .invalidDocument
      else .error .unrecognizedDocument
  | _ => .error .notAnObject

def ofDefinitions (text : String) : Except Fault ServiceSchema :=
  (GraphQl.Schema.ofDefinitions text).map graphQl

end ServiceSchema

end TypedClient
