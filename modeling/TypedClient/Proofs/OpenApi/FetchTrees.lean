import TypedClient.OpenApi.FetchClient.Module
import TypedClient.Proofs.ClientTrees

/-! The trees that the logs of a fetch client write.

The module is a list of statements. Each declares one name at module level.
-/

set_option autoImplicit false

namespace TypedClient.OpenApi.FetchClient

open Factory (literal)

def codesItem (status : StatusClass) : Item := .line (codesText status)

def typeItems (settings : Settings) (name : ClientName) (model : ClientModel) : List Item :=
  let quotes := Style.standard.quotes
  Factory.comment settings.typesComment ++
    (if settings.fullResponse then StatusClass.all.map codesItem ++ fullResponseItems quotes else []) ++
    model.declarationItems quotes ++ interfaceItems name.interface (model.methods ownMethods) ++
    [.blank,
     .block "type BuildOptions =" [.line "headers?: Record<string, string>;"] "",
     .line (buildText name.interface)]

inductive Statement where
  | typeImport (name source : String)
  | variable (name annotation value : String)
  /-- `lead` holds the words before `function`, each with a space behind it. -/
  | function (lead name signature : String) (body : List Item)
  | constant (name annotation header : String) (body : List Item)
  deriving Repr

namespace Statement

def name : Statement → String
  | typeImport name _ => name
  | «variable» name _ _ => name
  | function _ name _ _ => name
  | constant name _ _ _ => name

def items : Statement → List Item
  | typeImport name source => [.line ("import type * as " ++ name ++ " from " ++ source), .blank]
  | «variable» name annotation value => [.line (variableText name annotation value)]
  | function lead name signature body => [.blank, .block (functionHeader lead name signature) body ""]
  | constant name annotation header body =>
    [.blank, .block (constantHeader name annotation header) body ""]

end Statement

def importStatements (settings : Settings) (name : ClientName) : List Statement :=
  if settings.language = .typeScript then
    [.typeImport "Types" (literal (typesSource settings name.stem))]
  else []

def stateStatements (dialect : Dialect) : List Statement :=
  [.variable "baseUrl" "" (literal ""),
   .variable "defaultHeaders" (dialect.annotation "Record<string, string>") "\x7b\x7d"]

def helperStatements (dialect : Dialect) : List Statement :=
  [.function "" "sanitizeUrl" (sanitizerSignature dialect) [.line sanitizerLine],
   .constant "setBaseUrl" "" (addressSetter dialect) [.line "baseUrl = sanitizeUrl(newUrl)"],
   .constant "setDefaultHeaders" "" (headersSetter dialect) [.line "defaultHeaders = headers"],
   .function "async " "readBody" (readerSignature dialect)
    [.line contentTypeLine,
     .block ("if (contentType.includes(" ++ literal "application/json" ++ "))")
      [.line "return await response.json()"] "",
     .line "return await response.text()"]]

def commaLines : List String → List Item
  | [] => []
  | [text] => [.line text]
  | text :: rest => .line (text ++ ",") :: commaLines rest

def unlessMissing (access : Access) (body : List Item) : Item :=
  .block (presenceHeader access) body ""

def headerItem (dialect : Dialect) (parameter : Parameter) : Item :=
  let access := parameterAccess dialect.fullRequest .header parameter.name
  unlessMissing access [.line (headerLine parameter access)]

def queryItem (dialect : Dialect) (parameter : Parameter) : Item :=
  let access := parameterAccess dialect.fullRequest .query parameter.name
  unlessMissing access [.block (queryHeader access) [.line (queryLine parameter)] ""]

def queryItems (dialect : Dialect) (parameters : List Parameter) : List Item :=
  if parameters.isEmpty then []
  else
    .line "const searchParams = new URLSearchParams()" :: parameters.map (queryItem dialect) ++
      [.line "const query = searchParams.toString()"]

def spreadBodyLine (dialect : Dialect) (model : OperationModel) : Item :=
  .line (spreadBodyText dialect model)

def bodyItems (dialect : Dialect) (model : OperationModel) : List Item :=
  match model.request.body with
  | none => []
  | some body =>
    (if body.spread then spreadBodyLine dialect model
      else .line ("const body = " ++ bodyAccess.text)) ::
    (if body.multipart then [] else
      [.block "if (body !== undefined)"
        [.line ("headers[" ++ literal "Content-Type" ++ "] = " ++ literal "application/json")] ""])

def resultItems (dialect : Dialect) (model : OperationModel) : List Item :=
  let cast := if dialect.typeScript then " as " ++ declaredType model.responsesType else ""
  if dialect.fullResponse then
    [.block "return"
      [.line "statusCode: response.status,",
       .line "headers: Object.fromEntries(response.headers.entries()),",
       .line "body: responseBody"] cast]
  else
    [.block "if (!response.ok)"
      [.line "throw new Error(`$\x7bresponse.status\x7d $\x7bresponse.statusText\x7d`)"] "",
     .line ("return responseBody" ++ cast)]

def operationBody (dialect : Dialect) (model : OperationModel) : List Item :=
  let query := model.operation.parametersIn .query
  let url := urlTemplate dialect.fullRequest model.operation.path (!query.isEmpty)
  .block ("const headers" ++ dialect.annotation "Record<string, string>" ++ " =")
      [.line "...defaultHeaders"] "" ::
    (model.operation.parametersIn .header).map (headerItem dialect) ++
    queryItems dialect query ++ bodyItems dialect model ++
    [.block ("const response = await globalThis.fetch(" ++ url ++ ", ")
      (commaLines (fetchOptions dialect model)) ")",
     .line "const responseBody = await readBody(response)"] ++
    resultItems dialect model

def operationStatement (dialect : Dialect) (model : OperationModel) : Statement :=
  .function "async " (privateName model.id) (operationSignature dialect model)
    (operationBody dialect model)

def wrapperStatement (dialect : Dialect) (interface : String) (model : OperationModel) :
    Statement :=
  .constant model.id (wrapperType dialect interface model) "async (request) =>"
    [.line ("return await " ++ privateName model.id ++ "(baseUrl, request)")]

def buildStatement (dialect : Dialect) (interface : String) (model : ClientModel) : Statement :=
  .function "export default " "build" (buildSignature dialect interface)
    [.line "url = sanitizeUrl(url)",
     .block "if (options?.headers)" [.line "defaultHeaders = options.headers"] "",
     .block "return" (commaLines ((members model).map Member.text)) ""]

def statements (settings : Settings) (name : ClientName) (model : ClientModel) : List Statement :=
  let dialect := Dialect.ofSettings settings
  importStatements settings name ++ stateStatements dialect ++ helperStatements dialect ++
    model.operations.map (operationStatement dialect) ++
    model.operations.map (wrapperStatement dialect name.interface) ++
    [buildStatement dialect name.interface model]

def implementationItems (settings : Settings) (name : ClientName) (model : ClientModel) :
    List Item :=
  (statements settings name model).flatMap Statement.items

section Logs
variable (settings : Settings) (dialect : Dialect) (name : ClientName)

theorem stepsOf_typeItems (model : ClientModel) :
    Item.stepsOf (typeItems settings name model) = typeSteps settings name model := by
  have codes : Item.stepsOf (StatusClass.all.map codesItem) =
      StatusClass.all.map fun status => .line (codesText status) := Item.stepsOf_map_line _ _
  unfold typeItems typeSteps
  cases settings.fullResponse <;> simp [Item.stepsOf_append, codes]

@[simp] theorem stepsOf_commaLines (texts : List String) :
    Item.stepsOf (commaLines texts) = commaSteps texts := by
  induction texts with
  | nil => rfl
  | cons text rest ih =>
    cases rest with
    | nil => rfl
    | cons next rest => simp [commaLines, commaSteps, ih]

theorem stepsOf_headerItems (parameters : List Parameter) :
    Item.stepsOf (parameters.map (headerItem dialect)) = parameters.flatMap (headerSteps dialect) := by
  induction parameters with
  | nil => rfl
  | cons parameter rest ih => simp [ih, headerItem, headerSteps, unlessMissing]

theorem stepsOf_queryItems (parameters : List Parameter) :
    Item.stepsOf (queryItems dialect parameters) = searchSteps dialect parameters := by
  have each : Item.stepsOf (parameters.map (queryItem dialect)) =
      parameters.flatMap (querySteps dialect) := by
    induction parameters with
    | nil => rfl
    | cons parameter rest ih => simp [ih, queryItem, querySteps, unlessMissing]
  unfold queryItems searchSteps
  split
  · rfl
  · simp [Item.stepsOf_append, each]

theorem stepsOf_bodyItems (model : OperationModel) :
    Item.stepsOf (bodyItems dialect model) = bodySteps dialect model := by
  unfold bodyItems bodySteps bodyText spreadBodyLine
  cases model.request.body with
  | none => rfl
  | some body =>
    obtain ⟨_, _, multipart, spread⟩ := body
    cases spread <;> cases multipart <;> rfl

theorem stepsOf_resultItems (model : OperationModel) :
    Item.stepsOf (resultItems dialect model) = resultSteps dialect model := by
  unfold resultItems resultSteps
  cases dialect.fullResponse <;> rfl

theorem stepsOf_operationStatement (model : OperationModel) :
    Item.stepsOf (operationStatement dialect model).items = operationSteps dialect model := by
  simp only [operationStatement, Statement.items, operationBody, operationSteps, Item.stepsOf_cons,
    Item.stepsOf_nil, Item.stepsOf_append, Item.steps_blank, Item.steps_block, Item.steps_line,
    stepsOf_headerItems, stepsOf_queryItems, stepsOf_bodyItems, stepsOf_commaLines,
    stepsOf_resultItems, List.cons_append, List.nil_append, List.append_nil, List.append_assoc]
  rfl

theorem stepsOf_buildStatement (interface : String) (model : ClientModel) :
    Item.stepsOf (buildStatement dialect interface model).items =
      buildSteps dialect interface model := by
  simp only [buildStatement, Statement.items, buildSteps, Item.stepsOf_cons, Item.stepsOf_nil,
    Item.steps_blank, Item.steps_block, Item.steps_line, stepsOf_commaLines, List.cons_append,
    List.nil_append, List.append_nil, List.append_assoc]

theorem stepsOf_wrapperStatement (interface : String) (model : OperationModel) :
    Item.stepsOf (wrapperStatement dialect interface model).items =
      wrapperSteps dialect interface model := rfl

theorem stepsOf_importStatements :
    Item.stepsOf ((importStatements settings name).flatMap Statement.items) =
      importSteps settings name := by
  unfold importStatements importSteps
  split <;> rfl

theorem stepsOf_implementationItems (model : ClientModel) :
    Item.stepsOf (implementationItems settings name model) =
      implementationSteps settings name model := by
  simp only [implementationItems, statements, List.flatMap_append, List.flatMap_map,
    Item.stepsOf_append, Item.stepsOf_flatMap, stepsOf_operationStatement, stepsOf_wrapperStatement,
    List.flatMap_cons, List.flatMap_nil, List.append_nil, stepsOf_buildStatement]
  rw [← Item.stepsOf_flatMap, stepsOf_importStatements]
  rfl

/-- Both texts are those of the trees of one model. -/
theorem generate_eq_bind (document : Document) (settings : Settings) :
    generate document settings = (do
      let model ← ClientModel.build document settings reservedIds
      return ⟨Item.render Style.standard (typeItems settings (.ofText settings.name) model),
        Item.render Style.standard (implementationItems settings (.ofText settings.name) model)⟩) := by
  simp only [Item.render, stepsOf_typeItems, stepsOf_implementationItems]
  rfl

end Logs

end TypedClient.OpenApi.FetchClient
