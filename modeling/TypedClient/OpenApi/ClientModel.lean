import TypedClient.OpenApi.Request
import TypedClient.OpenApi.ResponseTypes

/-!
What every client of an OpenAPI service declares: the types of components, of requests
and responses, and an interface with one method for each operation.
-/

set_option autoImplicit false

namespace TypedClient.OpenApi

open Text (QuoteStyle quote)
open TypeScript (Body Declaration TypeExpr aliasText)

structure OperationModel where
  operation : Operation
  request : RequestShape
  alternatives : List Alternative
  deriving Repr

namespace OperationModel

def id (model : OperationModel) : String := model.operation.id

def requestType (model : OperationModel) : String := model.operation.typePrefix ++ "Request"

def responseType (model : OperationModel) (status : StatusClass) : String :=
  model.operation.typePrefix ++ "Response" ++ status.label

def responsesType (model : OperationModel) : String := model.operation.typePrefix ++ "Responses"

def optionalMark (model : OperationModel) : String := if model.request.required then "" else "?"

def responses (model : OperationModel) : TypeExpr :=
  TypeExpr.unionOf (model.alternatives.map fun alternative =>
    .reference (model.responseType alternative.status))

def declaredNames (model : OperationModel) : List String :=
  model.requestType :: (model.alternatives.map fun alternative =>
    model.responseType alternative.status) ++ [model.responsesType]

def steps (quotes : QuoteStyle) (model : OperationModel) : List Step :=
  .blank :: Declaration.steps quotes ⟨model.requestType, .alias model.request.type⟩ ++
    (model.alternatives.map fun alternative =>
      .line (aliasText quotes (model.responseType alternative.status) alternative.type)) ++
    [.line (aliasText quotes model.responsesType model.responses)]

end OperationModel

structure ClientModel where
  operations : List OperationModel
  declarations : List Declaration
  deriving Repr

structure MethodSignature where
  name : String
  parameters : String
  result : String
  deriving DecidableEq, Repr

def MethodSignature.text (method : MethodSignature) : String :=
  method.name ++ "(" ++ method.parameters ++ "): " ++ method.result ++ ";"

def OperationModel.method (model : OperationModel) : MethodSignature :=
  ⟨model.id, "req" ++ model.optionalMark ++ ": " ++ model.requestType,
    "Promise<" ++ model.responsesType ++ ">"⟩

def operationModel (document : Document) (settings : Settings) (operation : Operation) :
    Mapping OperationModel := do
  let request ← requestShape document settings operation
  let alternatives ←
    responseAlternatives document settings.propsOptional settings.fullResponse operation
  return ⟨operation, request, alternatives⟩

namespace ClientModel

/-- The model of a document's client, in which no operation has a reserved id. -/
def build (document : Document) (settings : Settings) (reserved : List String) :
    Except Fault ClientModel := do
  let operations ← document.operations reserved
  let (models, registry) := (operations.mapM (operationModel document settings)).run.run []
  return ⟨← models, Registry.declarations registry⟩

def usesFormData (model : ClientModel) : Bool :=
  model.operations.any fun operation => operation.request.body.any (·.multipart)

def declarationSteps (quotes : QuoteStyle) (model : ClientModel) : List Step :=
  (model.declarations.flatMap fun declaration => .blank :: declaration.steps quotes) ++
    model.operations.flatMap (·.steps quotes)

def methods (first : List MethodSignature) (model : ClientModel) : List MethodSignature :=
  first ++ model.operations.map (·.method)

end ClientModel

def interfaceSteps (name : String) (methods : List MethodSignature) : List Step :=
  [.blank, .openBlock ("export interface " ++ name)] ++
    (methods.map fun method => .line method.text) ++ [.closeBlock ""]

def fullResponseSteps (quotes : QuoteStyle) : List Step :=
  [.blank,
   .openBlock "export interface FullResponse<T, U extends number>",
   .line (quote quotes "statusCode" ++ ": U;"),
   .line (quote quotes "headers" ++ ": Record<string, string>;"),
   .line (quote quotes "body" ++ ": T;"),
   .closeBlock ""]

end TypedClient.OpenApi
