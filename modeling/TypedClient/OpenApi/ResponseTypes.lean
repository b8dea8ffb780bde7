import TypedClient.OpenApi.Operation
import TypedClient.OpenApi.SchemaMapping
import TypedClient.OpenApi.StatusClass

/-!
The types of an operation's responses, one for each status class that is declared.
-/

set_option autoImplicit false

namespace TypedClient.OpenApi

open TypeScript (TypeExpr)

structure Alternative where
  status : StatusClass
  type : TypeExpr
  deriving Repr

def fullResponse (body : TypeExpr) (status : StatusClass) : TypeExpr :=
  .generic "FullResponse" [body, .reference status.typeName]

def Operation.classified (operation : Operation) : List (StatusClass × Response) :=
  operation.responses.filterMap fun (key, response) =>
    (StatusClass.ofKey? key).map fun status => (status, response)

def responseBodies (document : Document) (propsOptional : Bool)
    (responses : List (StatusClass × Response)) : Mapping (List (StatusClass × TypeExpr)) :=
  responses.mapM fun (status, response) => do
    let type ← document.typeOf? propsOptional response.firstSchema?
    return (status, type)

def alternative? (wrap : Bool) (bodies : List (StatusClass × TypeExpr)) (status : StatusClass) :
    Option Alternative :=
  match (bodies.filter (·.1 == status)).map (·.2) with
  | [] => none
  | types =>
    let body := TypeExpr.unionOf types
    some ⟨status, if wrap then fullResponse body status else body⟩

/-- The alternatives of an operation in ascending order of their classes. -/
def responseAlternatives (document : Document) (propsOptional wrap : Bool)
    (operation : Operation) : Mapping (List Alternative) := do
  let bodies ← responseBodies document propsOptional operation.classified
  return StatusClass.all.filterMap (alternative? wrap bodies)

end TypedClient.OpenApi
