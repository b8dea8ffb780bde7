import TypedClient.OpenApi.FetchClient.Operation

/-!
A client of an OpenAPI service that needs nothing but `fetch`: its declaration file and
its module, in JavaScript or in TypeScript annotated with the declarations.
-/

set_option autoImplicit false

namespace TypedClient.OpenApi.FetchClient

open Factory (literal)

/-- Names of the module that operations must leave alone. -/
def reservedIds : List String :=
  ["baseUrl", "build", "defaultHeaders", "fetch", "globalThis", "readBody", "sanitizeUrl",
   "setBaseUrl", "setDefaultHeaders", "Types"]

def ownMethods : List MethodSignature :=
  [⟨"setBaseUrl", "baseUrl: string", "void"⟩,
   ⟨"setDefaultHeaders", "headers: Record<string, string>", "void"⟩]

def codesText (status : StatusClass) : String :=
  "export type " ++ status.typeName ++ " = " ++
    Text.join " | " (status.codes.map fun code => toString code) ++ ";"

def buildText (interface : String) : String :=
  "export default function build(url: string, options?: BuildOptions): " ++ interface ++ ";"

def typeSteps (settings : Settings) (name : ClientName) (model : ClientModel) : List Step :=
  let quotes := Style.standard.quotes
  Factory.commentSteps settings.typesComment ++
    (if settings.fullResponse then
      (StatusClass.all.map fun status => .line (codesText status)) ++ fullResponseSteps quotes
     else []) ++
    model.declarationSteps quotes ++ interfaceSteps name.interface (model.methods ownMethods) ++
    [.blank, .openBlock "type BuildOptions =", .line "headers?: Record<string, string>;",
     .closeBlock "", .line (buildText name.interface)]

def typesStem (stem : String) : String := stem ++ "-types"

def typesSource (settings : Settings) (stem : String) : String :=
  "./" ++ typesStem stem ++ "." ++ settings.typeExtension.importText

def sanitizerSignature (dialect : Dialect) : String :=
  "(url" ++ dialect.annotation "string" ++ ")" ++ dialect.annotation "string"

def addressSetter (dialect : Dialect) : String :=
  "(newUrl" ++ dialect.annotation "string" ++ ")" ++ dialect.annotation "void" ++ " =>"

def headersSetter (dialect : Dialect) : String :=
  "(headers" ++ dialect.annotation "Record<string, string>" ++ ")" ++ dialect.annotation "void" ++
    " =>"

def readerSignature (dialect : Dialect) : String :=
  "(response" ++ dialect.annotation "Response" ++ ")" ++ dialect.annotation "Promise<unknown>"

def sanitizerLine : String :=
  "return url.endsWith(" ++ literal "/" ++ ") ? url.slice(0, -1) : url"

def contentTypeLine : String :=
  "const contentType = response.headers.get(" ++ literal "content-type" ++ ") ?? " ++ literal ""

def helperSteps (dialect : Dialect) : List Step :=
  [.blank,
   .openBlock (functionHeader "" "sanitizeUrl" (sanitizerSignature dialect)),
   .line sanitizerLine,
   .closeBlock "",
   .blank,
   .openBlock (constantHeader "setBaseUrl" "" (addressSetter dialect)),
   .line "baseUrl = sanitizeUrl(newUrl)",
   .closeBlock "",
   .blank,
   .openBlock (constantHeader "setDefaultHeaders" "" (headersSetter dialect)),
   .line "defaultHeaders = headers",
   .closeBlock "",
   .blank,
   .openBlock (functionHeader "async " "readBody" (readerSignature dialect)),
   .line contentTypeLine,
   .openBlock ("if (contentType.includes(" ++ literal "application/json" ++ "))"),
   .line "return await response.json()",
   .closeBlock "",
   .line "return await response.text()",
   .closeBlock ""]

inductive Member where
  | own (name : String)
  | operation (id : String)
  deriving DecidableEq, Repr

def Member.name : Member → String
  | own name => name
  | operation id => id

def Member.text : Member → String
  | own name => name
  | operation id => id ++ ": " ++ privateName id ++ ".bind(null, url)"

def members (model : ClientModel) : List Member :=
  ownMethods.map (fun method => .own method.name) ++
    model.operations.map fun operation => .operation operation.id

def buildSignature (dialect : Dialect) (interface : String) : String :=
  if dialect.typeScript then
    "(url: string, options?: \x7b headers?: Record<string, string> \x7d): " ++ declaredType interface
  else "(url, options)"

def buildSteps (dialect : Dialect) (interface : String) (model : ClientModel) : List Step :=
  [.blank,
   .openBlock (functionHeader "export default " "build" (buildSignature dialect interface)),
   .line "url = sanitizeUrl(url)",
   .openBlock "if (options?.headers)",
   .line "defaultHeaders = options.headers",
   .closeBlock "",
   .openBlock "return"] ++ commaSteps ((members model).map Member.text) ++
    [.closeBlock "", .closeBlock ""]

def variableText (name annotation value : String) : String :=
  "let " ++ name ++ annotation ++ " = " ++ value

def importSteps (settings : Settings) (name : ClientName) : List Step :=
  if settings.language = .typeScript then
    [.line ("import type * as Types from " ++ literal (typesSource settings name.stem)), .blank]
  else []

def implementationSteps (settings : Settings) (name : ClientName) (model : ClientModel) : List Step :=
  let dialect := Dialect.ofSettings settings
  importSteps settings name ++
    [.line (variableText "baseUrl" "" (literal "")),
     .line (variableText "defaultHeaders" (dialect.annotation "Record<string, string>") "\x7b\x7d")] ++
    helperSteps dialect ++ model.operations.flatMap (operationSteps dialect) ++
    model.operations.flatMap (wrapperSteps dialect name.interface) ++
    buildSteps dialect name.interface model

def generate (document : Document) (settings : Settings) : Except Fault Artifact := do
  let name := ClientName.ofText settings.name
  let model ← ClientModel.build document settings reservedIds
  return ⟨Page.render Style.standard (typeSteps settings name model),
    Page.render Style.standard (implementationSteps settings name model)⟩

end TypedClient.OpenApi.FetchClient
