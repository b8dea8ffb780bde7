import TypedClient.OpenApi.OperationId
import TypedClient.OpenApi.Reference

/-!
The operations of a document, with references resolved, the parameters of their paths
merged in and an id each.
-/

set_option autoImplicit false

namespace TypedClient.OpenApi

structure Operation where
  path : String
  method : Method
  id : String
  parameters : List Parameter
  requestBody : Option RequestBody
  responses : List (String × Response)
  deriving Repr

namespace Operation

def typePrefix (operation : Operation) : String := Text.capitalize operation.id

def parametersIn (operation : Operation) (location : Location) : List Parameter :=
  operation.parameters.filter (·.location == location)

end Operation

def Document.resolveParameters (document : Document) (parameters : List (RefOr Parameter)) :
    Except Fault (List Parameter) :=
  parameters.mapM (RefOr.resolve document.components.parameters parametersSection)

def Document.resolveResponses (document : Document) (responses : List (String × RefOr Response)) :
    Except Fault (List (String × Response)) :=
  responses.mapM fun (key, response) => do
    let response ← response.resolve document.components.responses responsesSection
    return (key, response)

def Document.resolveBody (document : Document) (body : Option (RefOr RequestBody)) :
    Except Fault (Option RequestBody) :=
  match body with
  | none => .ok none
  | some body => some <$> body.resolve document.components.requestBodies requestBodiesSection

/-- Two parameters are the same if they agree in name and location. -/
def Parameter.sameKey (left right : Parameter) : Bool :=
  left.name == right.name && left.location == right.location

/-- Shared parameters go behind an operation's own, each unless its key is there already. -/
def mergeParameters (own shared : List Parameter) : List Parameter :=
  shared.foldl (fun merged parameter =>
    if merged.any (·.sameKey parameter) then merged else merged ++ [parameter]) own

def Document.operation (document : Document) (taken : List String) (path : String)
    (shared : List Parameter) (declared : PathOperation) : Except Fault Operation := do
  -- Of several references that lead nowhere, the first in this order is reported.
  let own ← document.resolveParameters declared.parameters
  let requestBody ← document.resolveBody declared.requestBody
  let responses ← document.resolveResponses declared.responses
  return {
    path, method := declared.method
    id := operationIdFor taken declared.method path declared.operationId
    parameters := mergeParameters own shared
    requestBody, responses }

def Document.pathOperations (document : Document) (path : String) (shared : List Parameter) :
    List PathOperation → List String → Except Fault (List Operation × List String)
  | [], taken => .ok ([], taken)
  | declared :: rest, taken => do
    let operation ← document.operation taken path shared declared
    let (operations, taken) ← document.pathOperations path shared rest (operation.id :: taken)
    return (operation :: operations, taken)

def Document.operationsOf (document : Document) :
    List (String × PathItem) → List String → Except Fault (List Operation)
  | [], _ => .ok []
  | (path, item) :: rest, taken => do
    let shared ← document.resolveParameters item.parameters
    let (first, taken) ← document.pathOperations path shared item.operations taken
    let operations ← document.operationsOf rest taken
    return first ++ operations

def Document.operations (document : Document) (reserved : List String) :
    Except Fault (List Operation) :=
  document.operationsOf document.paths reserved

end TypedClient.OpenApi
