import TypedClient.GraphQl.Definitions.Printer
import TypedClient.GraphQl.ServiceClient
import TypedClient.Manifest
import TypedClient.OpenApi.FetchClient.Module
import TypedClient.OpenApi.ServiceClient
import TypedClient.ServiceSchema

/-!
Clients for both kinds of service, and their files in the order in which they are written.
-/

set_option autoImplicit false

namespace TypedClient

/-- Stand-alone fetch clients are for OpenAPI services only. -/
def generate (schema : ServiceSchema) (settings : Settings) : Except Fault Artifact :=
  match schema with
  | .openApi document =>
    if settings.isFrontend then OpenApi.FetchClient.generate document settings
    else OpenApi.ServiceClient.generate document settings
  | .graphQl schema => GraphQl.ServiceClient.generate schema settings

structure PlannedFile where
  name : String
  contents : String
  deriving DecidableEq, Repr

namespace Bundle

def manifest (settings : Settings) (hasImplementation : Bool) : PlannedFile :=
  ⟨Manifest.fileName, Manifest.text settings.name settings.moduleFormat settings.typeExtension
    hasImplementation⟩

def typesFile (settings : Settings) (stem : String) (artifact : Artifact) : PlannedFile :=
  ⟨stem ++ "." ++ settings.typeExtension.text, artifact.types⟩

def implementationFile (settings : Settings) (extension : String) (artifact : Artifact) :
    PlannedFile :=
  ⟨settings.name ++ "." ++ extension, artifact.implementation⟩

def fullOnly (typesOnly : Bool) (files : List PlannedFile) : List PlannedFile :=
  if typesOnly then [] else files

def plan (schema : ServiceSchema) (document : Json.Value) (artifact : Artifact)
    (settings : Settings) (typesOnly : Bool) : List PlannedFile :=
  match schema with
  | .openApi _ =>
    let copy := ⟨OpenApi.ServiceClient.documentFile settings.name, document.pretty 0⟩
    -- A fetch client is no package, so it has no manifest.
    if settings.isFrontend then
      fullOnly typesOnly [copy] ++
        [typesFile settings (OpenApi.FetchClient.typesStem settings.name) artifact] ++
        fullOnly typesOnly
          [implementationFile settings settings.language.implementationText artifact]
    else
      fullOnly typesOnly [copy] ++ [typesFile settings settings.name artifact] ++
        fullOnly typesOnly
          [implementationFile settings settings.moduleFormat.implementationText artifact,
           manifest settings true]
  | .graphQl schema =>
    -- The schema is kept, and a manifest written, even where only types are wanted.
    [⟨GraphQl.ServiceClient.documentFile settings.name, schema.definitions⟩,
      typesFile settings settings.name artifact] ++
      fullOnly typesOnly
        [implementationFile settings settings.moduleFormat.implementationText artifact] ++
      [manifest settings (!typesOnly)]

end Bundle

end TypedClient
