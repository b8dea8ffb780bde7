import TypedClient.Factory
import TypedClient.OpenApi.ClientModel

/-!
The client of an OpenAPI service on the service package: declarations, and a factory
that hands the bundled document to the package's builder.
-/

set_option autoImplicit false

namespace TypedClient.OpenApi.ServiceClient

open Factory (literal)

def typeSteps (settings : Settings) (name : ClientName) (model : ClientModel) : List Step :=
  let quotes := Style.standard.quotes
  let imported := "type ClientOptions" :: StatusClass.all.map fun status => "type " ++ status.typeName
  Factory.commentSteps settings.typesComment ++
    [.line ("import \x7b " ++ Text.join ", " imported ++ " \x7d from " ++ literal Factory.package)] ++
    (if model.usesFormData then
      [.line ("import \x7b type FormData \x7d from " ++ literal "undici")] else []) ++
    fullResponseSteps quotes ++ model.declarationSteps quotes ++
    interfaceSteps name.interface (model.methods []) ++ Factory.declarationSteps name name.interface

def documentFile (stem : String) : String := stem ++ ".openapi.json"

def boolText (value : Bool) : String := if value then "true" else "false"

def builderLines (settings : Settings) (name : ClientName) : List String :=
  ["type: " ++ literal "openapi" ++ ",",
   "name: " ++ literal name.identifier ++ ",",
   "path: " ++ Factory.siblingPath settings.moduleFormat (documentFile name.stem) ++ ",",
   "url: opts.url,",
   "serviceId: opts.serviceId,",
   "throwOnError: opts.throwOnError,",
   "fullResponse: " ++ boolText settings.fullResponse ++ ",",
   "fullRequest: " ++ boolText settings.fullRequest ++ ",",
   "validateResponse: " ++ boolText settings.validateResponse ++ ",",
   "getHeaders: opts.getHeaders"]

def implementationSteps (settings : Settings) (name : ClientName) : List Step :=
  let format := settings.moduleFormat
  Factory.importSteps format "buildOpenAPIClient" ++ Factory.beginSteps format name ++
    [.openBlock "return buildOpenAPIClient("] ++ (builderLines settings name).map .line ++
    [.closeBlock ")", .closeBlock ""] ++ Factory.exportSteps format name

def generate (document : Document) (settings : Settings) : Except Fault Artifact := do
  let name := ClientName.ofText settings.name
  let model ← ClientModel.build document settings []
  return ⟨Page.render Style.standard (typeSteps settings name model),
    Page.render Style.standard (implementationSteps settings name)⟩

end TypedClient.OpenApi.ServiceClient
