import TypedClient.GraphQl.Definitions.Printer
import TypedClient.Proofs.ClientPages
import TypedClient.Proofs.OpenApi.RequestAccess
import TypedClient.Proofs.Text.Balance

/-! Every page of a client is written with its blocks in balance.

There is a lemma for each function that writes a part of a page. Most parts are balanced. The one that
opens the function of a factory is not, and the two clients on the service package close it.
-/

set_option autoImplicit false

namespace TypedClient

open Step (Balanced Nests balanced_map_line)
open Text (QuoteStyle)
open TypeScript (Declaration)

namespace TypeScript

theorem balanced_fieldSteps (quotes : QuoteStyle) :
    (fields : List Field) → Balanced (fieldSteps quotes fields)
  | [] => .nil
  | ⟨name, type, optional⟩ :: rest => by
    rw [fieldSteps]
    refine .append ?_ (balanced_fieldSteps quotes rest)
    cases type with
    | object fields =>
      rw [memberSteps]
      split
      · exact fun _ => rfl
      · exact (balanced_fieldSteps quotes fields).block _ ";"
    | _ => exact fun _ => rfl

theorem Declaration.balanced_steps (quotes : QuoteStyle) (declaration : Declaration) :
    Balanced (declaration.steps quotes) := by
  unfold steps
  split
  case h_1 fields _ => exact (balanced_fieldSteps quotes fields).block _ ""
  case h_2 field fields _ => exact (balanced_fieldSteps quotes (field :: fields)).block _ ""
  case h_3 => exact fun _ => rfl

/-- Declarations with an empty line before each. -/
theorem balanced_declarations (quotes : QuoteStyle) (declarations : List Declaration) :
    Balanced (declarations.flatMap fun declaration => .blank :: declaration.steps quotes) :=
  .flatMap fun declaration _ => declaration.balanced_steps quotes

end TypeScript

namespace Factory
variable (format : ModuleFormat) (name : ClientName)

theorem balanced_commentSteps (text : Option String) : Balanced (commentSteps text) := by
  cases text with
  | none => exact .nil
  | some text => exact balanced_map_line _ _

theorem balanced_importSteps (builder : String) : Balanced (importSteps format builder) := fun _ => rfl

theorem nests_beginSteps : Nests 0 1 (beginSteps format name) := fun _ => rfl

theorem balanced_exportSteps : Balanced (exportSteps format name) := by
  cases format <;> exact fun _ => rfl

theorem balanced_declarationSteps (promised : String) : Balanced (declarationSteps name promised) :=
  fun _ => rfl

/-- A client on the service package closes the function behind the call of its builder. -/
theorem balanced_module {call : List Step} (builder : String) (opens : Nests 1 2 call)
    (lines : List String) :
    Balanced (importSteps format builder ++ beginSteps format name ++ call ++ lines.map .line ++
      [.closeBlock ")", .closeBlock ""] ++ exportSteps format name) := by
  have closes : Nests 2 0 [.closeBlock ")", .closeBlock ""] := fun _ => rfl
  have begins := (balanced_importSteps format builder).inside.append (nests_beginSteps format name)
  have passed := (begins.append opens).then (balanced_map_line id lines)
  exact ((passed.append closes).then (balanced_exportSteps format name)).balanced

end Factory

namespace OpenApi
variable (settings : Settings) (name : ClientName) (model : ClientModel)

theorem OperationModel.balanced_steps (quotes : QuoteStyle) (operation : OperationModel) :
    Balanced (operation.steps quotes) := by
  have request : Balanced (.blank :: Declaration.steps quotes
      ⟨operation.requestType, .alias operation.request.type⟩) := Declaration.balanced_steps quotes _
  exact .append (request.append (balanced_map_line _ _)) fun _ => rfl

theorem ClientModel.balanced_declarationSteps (quotes : QuoteStyle) :
    Balanced (model.declarationSteps quotes) :=
  (TypeScript.balanced_declarations quotes model.declarations).append
    (.flatMap fun operation _ => operation.balanced_steps quotes)

theorem balanced_interfaceSteps (interface : String) (methods : List MethodSignature) :
    Balanced (interfaceSteps interface methods) :=
  (balanced_map_line MethodSignature.text methods).block ("export interface " ++ interface) ""

theorem balanced_fullResponseSteps (quotes : QuoteStyle) : Balanced (fullResponseSteps quotes) :=
  fun _ => rfl

namespace ServiceClient

theorem balanced_typeSteps : Balanced (typeSteps settings name model) := by
  unfold typeSteps
  refine .append (.append (.append (.append (.append (.append ?comment ?options) ?forms) ?responses)
    ?declarations) ?interface) ?factory
  case comment => exact Factory.balanced_commentSteps settings.typesComment
  case options => exact fun _ => rfl
  case forms => split <;> exact fun _ => rfl
  case responses => exact balanced_fullResponseSteps _
  case declarations => exact model.balanced_declarationSteps _
  case interface => exact balanced_interfaceSteps _ _
  case factory => exact Factory.balanced_declarationSteps name _

theorem balanced_implementationSteps : Balanced (implementationSteps settings name) :=
  Factory.balanced_module settings.moduleFormat name "buildOpenAPIClient" (fun _ => rfl)
    (builderLines settings name)

end ServiceClient

namespace FetchClient
variable (dialect : Dialect) (operation : OperationModel)

theorem balanced_typeSteps : Balanced (typeSteps settings name model) := by
  unfold typeSteps
  refine .append (.append (.append (.append ?comment ?responses) ?declarations) ?interface) ?build
  case comment => exact Factory.balanced_commentSteps settings.typesComment
  case responses =>
    split
    · exact (balanced_map_line _ _).append (balanced_fullResponseSteps _)
    · exact .nil
  case declarations => exact model.balanced_declarationSteps _
  case interface => exact balanced_interfaceSteps _ _
  case build => exact fun _ => rfl

theorem balanced_commaSteps (texts : List String) : Balanced (commaSteps texts) := by
  induction texts with
  | nil => exact .nil
  | cons text rest ih =>
    cases rest with
    | nil => exact fun _ => rfl
    | cons next rest => exact ih

theorem balanced_headerSteps (parameter : Parameter) : Balanced (headerSteps dialect parameter) :=
  fun _ => rfl

theorem balanced_querySteps (parameter : Parameter) : Balanced (querySteps dialect parameter) :=
  fun _ => rfl

theorem balanced_searchSteps (parameters : List Parameter) :
    Balanced (searchSteps dialect parameters) := by
  unfold searchSteps
  split
  · exact .nil
  · have each : Balanced (parameters.flatMap (querySteps dialect)) :=
      .flatMap fun parameter _ => balanced_querySteps dialect parameter
    exact .append each fun _ => rfl

theorem balanced_bodySteps : Balanced (bodySteps dialect operation) := by
  unfold bodySteps
  split
  · exact .nil
  · split <;> exact fun _ => rfl

theorem balanced_resultSteps : Balanced (resultSteps dialect operation) := by
  unfold resultSteps
  extract_lets
  split <;> exact fun _ => rfl

/-- The function is open while its statements are written, and so is the call while its options are. -/
theorem balanced_operationSteps : Balanced (operationSteps dialect operation) := by
  have begins : Nests 0 1 [.blank,
      .openBlock (functionHeader "async " (privateName operation.id) (operationSignature dialect operation)),
      .openBlock ("const headers" ++ dialect.annotation "Record<string, string>" ++ " ="),
      .line "...defaultHeaders", .closeBlock ""] := fun _ => rfl
  have sends : Nests 1 2 [.openBlock (sendHeader dialect operation)] := fun _ => rfl
  have sent : Nests 2 1 [.closeBlock ")", .line "const responseBody = await readBody(response)"] :=
    fun _ => rfl
  have ends : Nests 1 0 [.closeBlock ""] := fun _ => rfl
  have headers : Balanced ((operation.operation.parametersIn .header).flatMap (headerSteps dialect)) :=
    .flatMap fun parameter _ => balanced_headerSteps dialect parameter
  have prepared := ((begins.then headers).then
    (balanced_searchSteps dialect (operation.operation.parametersIn .query))).then
      (balanced_bodySteps dialect operation)
  have called := ((prepared.append sends).then
    (balanced_commaSteps (fetchOptions dialect operation))).append sent
  exact ((called.then (balanced_resultSteps dialect operation)).append ends).balanced

theorem balanced_wrapperSteps (interface : String) :
    Balanced (wrapperSteps dialect interface operation) :=
  fun _ => rfl

theorem balanced_helperSteps : Balanced (helperSteps dialect) := fun _ => rfl

theorem balanced_buildSteps (interface : String) : Balanced (buildSteps dialect interface model) := by
  have begins : Nests 0 2 [.blank,
      .openBlock (functionHeader "export default " "build" (buildSignature dialect interface)),
      .line "url = sanitizeUrl(url)", .openBlock "if (options?.headers)",
      .line "defaultHeaders = options.headers", .closeBlock "", .openBlock "return"] := fun _ => rfl
  have ends : Nests 2 0 [.closeBlock "", .closeBlock ""] := fun _ => rfl
  exact ((begins.then (balanced_commaSteps _)).append ends).balanced

theorem balanced_importSteps : Balanced (importSteps settings name) := by
  unfold importSteps
  split <;> exact fun _ => rfl

theorem balanced_implementationSteps : Balanced (implementationSteps settings name model) := by
  unfold implementationSteps
  refine .append (.append (.append (.append (.append ?imports ?state) ?helpers) ?operations) ?wrappers)
    ?build
  case imports => exact balanced_importSteps settings name
  case state => exact fun _ => rfl
  case helpers => exact balanced_helperSteps _
  case operations => exact .flatMap fun operation _ => balanced_operationSteps _ operation
  case wrappers => exact .flatMap fun operation _ => balanced_wrapperSteps _ operation _
  case build => exact balanced_buildSteps model _ name.interface

end FetchClient

end OpenApi

namespace GraphQl

namespace ServiceClient
variable (settings : Settings) (name : ClientName)

theorem balanced_clientSteps : Balanced clientSteps := fun _ => rfl

theorem balanced_typeSteps (declarations : List Declaration) :
    Balanced (typeSteps settings name declarations) := by
  unfold typeSteps
  refine .append (.append (.append (.append ?comment ?options) ?client) ?declarations) ?factory
  case comment => exact Factory.balanced_commentSteps settings.typesComment
  case options => exact fun _ => rfl
  case client => exact balanced_clientSteps
  case declarations => exact TypeScript.balanced_declarations _ declarations
  case factory => exact Factory.balanced_declarationSteps name _

theorem balanced_implementationSteps (path : String) :
    Balanced (implementationSteps settings name path) :=
  Factory.balanced_module settings.moduleFormat name "buildGraphQLClient" (fun _ => rfl)
    (builderLines settings name)

end ServiceClient

theorem balanced_descriptionSteps (description : Option String) :
    Balanced (descriptionSteps description) := by
  unfold descriptionSteps
  split
  · exact .nil
  · split_ifs <;> exact fun _ => rfl

theorem Field.balanced_steps (field : Field) : Balanced field.steps :=
  (balanced_descriptionSteps field.description).append fun _ => rfl

theorem EnumValue.balanced_steps (value : EnumValue) : Balanced value.steps :=
  (balanced_descriptionSteps value.description).append fun _ => rfl

theorem InputValue.balanced_steps (value : InputValue) : Balanced value.steps :=
  (balanced_descriptionSteps value.description).append fun _ => rfl

theorem NamedType.balanced_bodySteps (type : NamedType) : Balanced type.bodySteps := by
  have fields := Balanced.flatMap fun field (_ : field ∈ type.fields.getD []) => field.balanced_steps
  have values := Balanced.flatMap fun value (_ : value ∈ type.enumValues.getD []) => value.balanced_steps
  have inputs := Balanced.flatMap fun input (_ : input ∈ type.inputFields.getD []) => input.balanced_steps
  unfold bodySteps
  cases type.kind with
  | object => exact fields.block _ ""
  | interface => exact fields.block _ ""
  | enumeration => exact values.block _ ""
  | inputObject => exact inputs.block _ ""
  | scalar => exact fun _ => rfl
  | union => exact fun _ => rfl
  | list => exact .nil
  | nonNull => exact .nil

theorem NamedType.balanced_steps (type : NamedType) : Balanced type.steps := by
  have described : Balanced (.blank :: descriptionSteps type.description) :=
    balanced_descriptionSteps type.description
  exact described.append type.balanced_bodySteps

namespace Schema

theorem balanced_rootSteps (schema : Schema) : Balanced schema.rootSteps := by
  refine .of_lines fun step member => ?_
  obtain ⟨⟨operation, root, usual⟩, -, found⟩ := List.mem_filterMap.mp member
  obtain ⟨name, -, rfl⟩ := Option.map_eq_some_iff.mp found
  exact ⟨_, rfl⟩

theorem balanced_steps (schema : Schema) : Balanced schema.steps := by
  have roots : Balanced (if schema.hasUnusualRoot then
      .openBlock "schema" :: (schema.rootSteps ++ [.closeBlock ""]) else []) := by
    split
    · exact schema.balanced_rootSteps.block "schema" ""
    · exact .nil
  exact roots.append (.flatMap fun type _ => type.balanced_steps)

end Schema

end GraphQl

open Page (guardedText?)

/-- The log of a page that is written for a client: of its two files or, for GraphQL, of the
definitions. -/
inductive Written (settings : Settings) : ServiceSchema → List Step → Prop where
  | serviceTypes {document : OpenApi.Document} {model : OpenApi.ClientModel} :
      settings.isFrontend = false → OpenApi.ClientModel.build document settings [] = .ok model →
      Written settings (.openApi document)
        (OpenApi.ServiceClient.typeSteps settings (.ofText settings.name) model)
  | serviceModule {document : OpenApi.Document} : settings.isFrontend = false →
      Written settings (.openApi document)
        (OpenApi.ServiceClient.implementationSteps settings (.ofText settings.name))
  | fetchTypes {document : OpenApi.Document} {model : OpenApi.ClientModel} :
      settings.isFrontend = true →
      OpenApi.ClientModel.build document settings OpenApi.FetchClient.reservedIds = .ok model →
      Written settings (.openApi document)
        (OpenApi.FetchClient.typeSteps settings (.ofText settings.name) model)
  | fetchModule {document : OpenApi.Document} {model : OpenApi.ClientModel} :
      settings.isFrontend = true →
      OpenApi.ClientModel.build document settings OpenApi.FetchClient.reservedIds = .ok model →
      Written settings (.openApi document)
        (OpenApi.FetchClient.implementationSteps settings (.ofText settings.name) model)
  | graphQlTypes {schema : GraphQl.Schema} {declarations : List Declaration} :
      schema.declarations = .ok declarations →
      Written settings (.graphQl schema)
        (GraphQl.ServiceClient.typeSteps settings (.ofText settings.name) declarations)
  | graphQlModule {schema : GraphQl.Schema} {path : String} :
      Url.pathOf (settings.graphQlUrl.getD GraphQl.ServiceClient.standardUrl) = .ok path →
      Written settings (.graphQl schema)
        (GraphQl.ServiceClient.implementationSteps settings (.ofText settings.name) path)
  | definitions {schema : GraphQl.Schema} : Written settings (.graphQl schema) schema.steps

section Clients
variable {settings : Settings} {schema : ServiceSchema} {artifact : Artifact}

theorem Written.balanced {steps : List Step} (written : Written settings schema steps) :
    Balanced steps := by
  cases written with
  | serviceTypes => exact OpenApi.ServiceClient.balanced_typeSteps settings _ _
  | serviceModule => exact OpenApi.ServiceClient.balanced_implementationSteps settings _
  | fetchTypes => exact OpenApi.FetchClient.balanced_typeSteps settings _ _
  | fetchModule => exact OpenApi.FetchClient.balanced_implementationSteps settings _ _
  | graphQlTypes => exact GraphQl.ServiceClient.balanced_typeSteps settings _ _
  | graphQlModule => exact GraphQl.ServiceClient.balanced_implementationSteps settings _ _
  | @definitions schema => exact schema.balanced_steps

theorem ClientPages.written {types implementation : List Step}
    (pages : ClientPages settings schema types implementation) :
    Written settings schema types ∧ Written settings schema implementation := by
  cases pages with
  | service backend built => exact ⟨.serviceTypes backend built, .serviceModule backend⟩
  | fetch frontend built => exact ⟨.fetchTypes frontend built, .fetchModule frontend built⟩
  | graphQl found mapped => exact ⟨.graphQlTypes mapped, .graphQlModule found⟩

/-- No page of a client closes a block that is not open or leaves one open, and the texts of a client are
the pages that its logs write. -/
theorem pages_balanced (schema : ServiceSchema) (settings : Settings) :
    (∀ steps, Written settings schema steps →
      guardedText? Style.standard steps = some (Page.render Style.standard steps)) ∧
    (∀ artifact, generate schema settings = .ok artifact → ∃ types implementation,
      Written settings schema types ∧ Written settings schema implementation ∧
        artifact = ⟨Page.render Style.standard types, Page.render Style.standard implementation⟩) ∧
    ∀ source, schema = .graphQl source → ∃ steps, Written settings schema steps ∧
      source.definitions = Page.render Style.standard steps := by
  refine ⟨fun steps written => Page.guardedText?_of_balanced Style.standard written.balanced, ?_, ?_⟩
  · intro artifact generated
    obtain ⟨types, implementation, pages, given⟩ := exists_pages_of_generate generated
    exact ⟨types, implementation, pages.written.1, pages.written.2, given⟩
  · rintro source rfl
    exact ⟨source.steps, .definitions, rfl⟩

theorem shelf_pages_balanced :
    ∃ artifact, generate (.openApi OpenApi.shelfDocument) (OpenApi.flatSettings "shelf") =
        .ok artifact ∧
      ∃ types implementation,
        Written (OpenApi.flatSettings "shelf") (.openApi OpenApi.shelfDocument) types ∧
        Written (OpenApi.flatSettings "shelf") (.openApi OpenApi.shelfDocument) implementation ∧
        guardedText? Style.standard types = some artifact.types ∧
        guardedText? Style.standard implementation = some artifact.implementation := by
  obtain ⟨balanced, files, -⟩ :=
    pages_balanced (.openApi OpenApi.shelfDocument) (OpenApi.flatSettings "shelf")
  refine ⟨_, rfl, ?_⟩
  obtain ⟨types, implementation, first, second, given⟩ := files _ rfl
  refine ⟨types, implementation, first, second, ?_, ?_⟩
  · rw [balanced types first, given]
  · rw [balanced implementation second, given]

end Clients

end TypedClient
