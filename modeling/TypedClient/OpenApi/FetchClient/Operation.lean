import TypedClient.OpenApi.ClientModel
import TypedClient.OpenApi.FetchClient.Access

/-!
The function that performs one operation by `fetch`, and the exported one around it.
-/

set_option autoImplicit false

namespace TypedClient.OpenApi.FetchClient

open Factory (literal)

structure Dialect where
  typeScript : Bool
  fullRequest : Bool
  fullResponse : Bool
  withCredentials : Bool
  deriving DecidableEq, Repr

def Dialect.ofSettings (settings : Settings) : Dialect :=
  ⟨settings.language == .typeScript, settings.fullRequest, settings.fullResponse,
    settings.withCredentials⟩

def Dialect.annotation (dialect : Dialect) (type : String) : String :=
  if dialect.typeScript then ": " ++ type else ""

def declaredType (name : String) : String := "Types." ++ name

def commaSteps : List String → List Step
  | [] => []
  | [text] => [.line text]
  | text :: rest => .line (text ++ ",") :: commaSteps rest

def functionHeader (lead name signature : String) : String :=
  lead ++ "function " ++ name ++ " " ++ signature

def constantHeader (name annotation value : String) : String :=
  "export const " ++ name ++ annotation ++ " = " ++ value

def presenceHeader (access : Access) : String := "if (" ++ access.text ++ " !== undefined)"

def headerLine (parameter : Parameter) (access : Access) : String :=
  "headers[" ++ literal parameter.name ++ "] = String(" ++ access.text ++ ")"

def headerSteps (dialect : Dialect) (parameter : Parameter) : List Step :=
  let access := parameterAccess dialect.fullRequest .header parameter.name
  [.openBlock (presenceHeader access), .line (headerLine parameter access), .closeBlock ""]

def queryHeader (access : Access) : String :=
  "for (const value of [" ++ access.text ++ "].flat())"

def queryLine (parameter : Parameter) : String :=
  "searchParams.append(" ++ literal parameter.name ++ ", String(value))"

def querySteps (dialect : Dialect) (parameter : Parameter) : List Step :=
  let access := parameterAccess dialect.fullRequest .query parameter.name
  [.openBlock (presenceHeader access), .openBlock (queryHeader access), .line (queryLine parameter),
   .closeBlock "", .closeBlock ""]

def searchSteps (dialect : Dialect) (parameters : List Parameter) : List Step :=
  if parameters.isEmpty then []
  else
    .line "const searchParams = new URLSearchParams()" :: parameters.flatMap (querySteps dialect) ++
      [.line "const query = searchParams.toString()"]

structure Binding where
  member : String
  name : String
  deriving DecidableEq, Repr

def Binding.text (binding : Binding) : String := literal binding.member ++ ": " ++ binding.name

/-- Parameters are taken out of the argument under names with an underscore; one of each name. -/
def parameterBindings (operation : Operation) : List Binding :=
  ((operation.parameters.filter (·.location != .cookie)).map (·.name)).eraseDups.map fun name =>
    ⟨name, "_" ++ Text.toIdentifier name⟩

/-- Everything in the argument that is not a parameter is the body. -/
def spreadBodyText (dialect : Dialect) (model : OperationModel) : String :=
  let taken := (parameterBindings model.operation).map Binding.text ++ ["...body"]
  let source :=
    if dialect.typeScript then "(request ?? \x7b\x7d) as " ++ declaredType model.requestType
    else "request ?? \x7b\x7d"
  "const \x7b " ++ Text.join ", " taken ++ " \x7d = " ++ source

def bodyText (dialect : Dialect) (model : OperationModel) (body : BodyShape) : String :=
  if body.spread then spreadBodyText dialect model else "const body = " ++ bodyAccess.text

def bodySteps (dialect : Dialect) (model : OperationModel) : List Step :=
  match model.request.body with
  | none => []
  | some body =>
    .line (bodyText dialect model body) ::
    (if body.multipart then [] else
      [.openBlock "if (body !== undefined)",
       .line ("headers[" ++ literal "Content-Type" ++ "] = " ++ literal "application/json"),
       .closeBlock ""])

def fetchOptions (dialect : Dialect) (model : OperationModel) : List String :=
  let body := match model.request.body with
    | none => []
    | some body => if body.multipart then ["body"] else ["body: JSON.stringify(body)"]
  ["method: " ++ literal model.operation.method.upperText, "headers"] ++ body ++
    (if dialect.withCredentials then ["credentials: " ++ literal "include"] else [])

def resultSteps (dialect : Dialect) (model : OperationModel) : List Step :=
  let cast := if dialect.typeScript then " as " ++ declaredType model.responsesType else ""
  if dialect.fullResponse then
    [.openBlock "return",
     .line "statusCode: response.status,",
     .line "headers: Object.fromEntries(response.headers.entries()),",
     .line "body: responseBody",
     .closeBlock cast]
  else
    [.openBlock "if (!response.ok)",
     .line "throw new Error(`$\x7bresponse.status\x7d $\x7bresponse.statusText\x7d`)",
     .closeBlock "",
     .line ("return responseBody" ++ cast)]

def privateName (id : String) : String := "_" ++ id

def operationSignature (dialect : Dialect) (model : OperationModel) : String :=
  if dialect.typeScript then
    "(url: string, request" ++ model.optionalMark ++ ": " ++ declaredType model.requestType ++
      "): Promise<" ++ declaredType model.responsesType ++ ">"
  else "(url, request)"

def sendHeader (dialect : Dialect) (model : OperationModel) : String :=
  let query := model.operation.parametersIn .query
  let url := urlTemplate dialect.fullRequest model.operation.path (!query.isEmpty)
  "const response = await globalThis.fetch(" ++ url ++ ", "

def operationSteps (dialect : Dialect) (model : OperationModel) : List Step :=
  [.blank,
   .openBlock (functionHeader "async " (privateName model.id) (operationSignature dialect model)),
   .openBlock ("const headers" ++ dialect.annotation "Record<string, string>" ++ " ="),
   .line "...defaultHeaders",
   .closeBlock ""] ++
    (model.operation.parametersIn .header).flatMap (headerSteps dialect) ++
    searchSteps dialect (model.operation.parametersIn .query) ++ bodySteps dialect model ++
    [.openBlock (sendHeader dialect model)] ++ commaSteps (fetchOptions dialect model) ++
    [.closeBlock ")", .line "const responseBody = await readBody(response)"] ++
    resultSteps dialect model ++ [.closeBlock ""]

def wrapperType (dialect : Dialect) (interface : String) (model : OperationModel) : String :=
  if dialect.typeScript then ": " ++ declaredType interface ++ "[" ++ literal model.id ++ "]"
  else ""

def wrapperSteps (dialect : Dialect) (interface : String) (model : OperationModel) : List Step :=
  [.blank,
   .openBlock (constantHeader model.id (wrapperType dialect interface model)
     "async (request) =>"),
   .line ("return await " ++ privateName model.id ++ "(baseUrl, request)"),
   .closeBlock ""]

end TypedClient.OpenApi.FetchClient
