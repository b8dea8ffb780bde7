import TypedClient.Factory
import TypedClient.GraphQl.ObjectTypes
import TypedClient.Settings
import TypedClient.Url

/-!
The client of a GraphQL service on the service package: declarations of its object types,
and a factory that hands the schema to the package's builder.
-/

set_option autoImplicit false

namespace TypedClient.GraphQl.ServiceClient

open Factory (literal)
open TypeScript (Declaration)

/-- The address that is assumed when the schema does not come from a running service. -/
def standardUrl : String := "http://localhost:3042/graphql"

def clientSteps : List Step :=
  [.blank,
   .openBlock "interface GraphQLQueryOptions",
   .line "query: string;",
   .line "headers: Record<string, string>;",
   .line "variables: Record<string, unknown>;",
   .closeBlock "",
   .blank,
   .openBlock "interface GraphQLClient",
   .line "graphql<T>(options: GraphQLQueryOptions): PromiseLike<T>;",
   .closeBlock ""]

def typeSteps (settings : Settings) (name : ClientName) (declarations : List Declaration) :
    List Step :=
  Factory.commentSteps settings.typesComment ++
    [.line ("import \x7b type ClientOptions \x7d from " ++ literal Factory.package)] ++
    clientSteps ++
    (declarations.flatMap fun declaration =>
      .blank :: declaration.steps Style.standard.quotes) ++
    Factory.declarationSteps name "GraphQLClient"

def documentFile (stem : String) : String := stem ++ ".schema.graphql"

def builderLines (settings : Settings) (name : ClientName) : List String :=
  ["type: " ++ literal "graphql" ++ ",",
   "name: " ++ literal name.identifier ++ ",",
   "path: " ++ Factory.siblingPath settings.moduleFormat (documentFile name.stem) ++ ",",
   "serviceId: opts.serviceId,",
   "url: url.toString()"]

def implementationSteps (settings : Settings) (name : ClientName) (path : String) : List Step :=
  let format := settings.moduleFormat
  Factory.importSteps format "buildGraphQLClient" ++ Factory.beginSteps format name ++
    [.line "const url = new URL(opts.url)",
     .line ("url.pathname = " ++ literal path),
     .openBlock "return buildGraphQLClient("] ++
    (builderLines settings name).map .line ++ [.closeBlock ")", .closeBlock ""] ++
    Factory.exportSteps format name

def generate (schema : Schema) (settings : Settings) : Except Fault Artifact := do
  let name := ClientName.ofText settings.name
  let address := settings.graphQlUrl.getD standardUrl
  let path ← match Url.pathOf address with
    | .ok path => pure path
    | .error reason => throw (.invalidUrl address reason)
  let declarations ← schema.declarations
  return ⟨Page.render Style.standard (typeSteps settings name declarations),
    Page.render Style.standard (implementationSteps settings name path)⟩

end TypedClient.GraphQl.ServiceClient
