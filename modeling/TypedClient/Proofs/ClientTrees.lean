import TypedClient.GraphQl.ServiceClient
import TypedClient.OpenApi.ServiceClient

/-! The trees that the logs of a client write.

A log opens and closes blocks one step at a time. Where it closes what it opens, a tree says what
has been written without any bookkeeping, and has the log for its steps.
-/

set_option autoImplicit false

namespace TypedClient

open Text (QuoteStyle quote)
open TypeScript (Declaration Field TypeExpr aliasLine)

namespace Factory

variable (format : ModuleFormat) (name : ClientName)

def comment (text : Option String) : List Item :=
  match text with
  | none => []
  | some text => (Text.lines text).map fun line => .line ("// " ++ line)

def imports (builder : String) : List Item :=
  [.line (importText format builder package), .line (importText format "join" "node:path"), .blank]

def function (body : List Item) : Item := .block (header format name) body ""

def exports : List Item :=
  .blank :: match format with
    | .esm => [.line ("export default " ++ name.factory)]
    | .cjs =>
      [.line ("module.exports = " ++ name.factory),
       .line ("module.exports.default = " ++ name.factory),
       .line ("module.exports." ++ name.factory ++ " = " ++ name.factory)]

def declaration (promised : String) : List Item :=
  [.blank,
   .line ("export function " ++ name.factory ++ "(opts: ClientOptions): Promise<" ++
      promised ++ ">;"),
   .line ("export default " ++ name.factory ++ ";")]

@[simp] theorem stepsOf_comment (text : Option String) :
    Item.stepsOf (comment text) = commentSteps text := by
  cases text with
  | none => rfl
  | some text => exact Item.stepsOf_map_line _ _

@[simp] theorem stepsOf_imports (builder : String) :
    Item.stepsOf (imports format builder) = importSteps format builder := rfl

/-- The function is closed behind what its caller writes into it. -/
@[simp] theorem steps_function (body : List Item) :
    (function format name body).steps =
      beginSteps format name ++ (Item.stepsOf body ++ [.closeBlock ""]) := rfl

@[simp] theorem stepsOf_exports : Item.stepsOf (exports format name) = exportSteps format name := by
  cases format <;> rfl

@[simp] theorem stepsOf_declaration (promised : String) :
    Item.stepsOf (declaration name promised) = declarationSteps name promised := rfl

end Factory

namespace OpenApi

def OperationModel.items (quotes : QuoteStyle) (model : OperationModel) : List Item :=
  .blank :: Declaration.item quotes ⟨model.requestType, .alias model.request.type⟩ ::
    (model.alternatives.map fun alternative =>
      aliasLine quotes (model.responseType alternative.status) alternative.type) ++
    [aliasLine quotes model.responsesType model.responses]

def ClientModel.declarationItems (quotes : QuoteStyle) (model : ClientModel) : List Item :=
  (model.declarations.flatMap fun declaration => [.blank, declaration.item quotes]) ++
    model.operations.flatMap (·.items quotes)

def interfaceItems (name : String) (methods : List MethodSignature) : List Item :=
  [.blank, .block ("export interface " ++ name) (methods.map fun method => .line method.text) ""]

def fullResponseItems (quotes : QuoteStyle) : List Item :=
  [.blank,
   .block "export interface FullResponse<T, U extends number>"
    [.line (quote quotes "statusCode" ++ ": U;"),
     .line (quote quotes "headers" ++ ": Record<string, string>;"),
     .line (quote quotes "body" ++ ": T;")] ""]

@[simp] theorem OperationModel.stepsOf_items (quotes : QuoteStyle) (model : OperationModel) :
    Item.stepsOf (model.items quotes) = model.steps quotes := by
  simp [items, steps, aliasLine, Item.stepsOf_append]

@[simp] theorem ClientModel.stepsOf_declarationItems (quotes : QuoteStyle) (model : ClientModel) :
    Item.stepsOf (model.declarationItems quotes) = model.declarationSteps quotes := by
  simp [declarationItems, declarationSteps, Item.stepsOf_append]

@[simp] theorem stepsOf_interfaceItems (name : String) (methods : List MethodSignature) :
    Item.stepsOf (interfaceItems name methods) = interfaceSteps name methods := by
  simp [interfaceItems, interfaceSteps]

@[simp] theorem stepsOf_fullResponseItems (quotes : QuoteStyle) :
    Item.stepsOf (fullResponseItems quotes) = fullResponseSteps quotes := rfl

namespace ServiceClient

open Factory (literal)

def typeItems (settings : Settings) (name : ClientName) (model : ClientModel) : List Item :=
  let quotes := Style.standard.quotes
  let imported := "type ClientOptions" :: StatusClass.all.map fun status => "type " ++ status.typeName
  Factory.comment settings.typesComment ++
    [.line ("import \x7b " ++ Text.join ", " imported ++ " \x7d from " ++ literal Factory.package)] ++
    (if model.usesFormData then
      [.line ("import \x7b type FormData \x7d from " ++ literal "undici")] else []) ++
    fullResponseItems quotes ++ model.declarationItems quotes ++
    interfaceItems name.interface (model.methods []) ++ Factory.declaration name name.interface

def implementationItems (settings : Settings) (name : ClientName) : List Item :=
  let format := settings.moduleFormat
  Factory.imports format "buildOpenAPIClient" ++
    [Factory.function format name
      [.block "return buildOpenAPIClient(" ((builderLines settings name).map .line) ")"]] ++
    Factory.exports format name

theorem stepsOf_typeItems (settings : Settings) (name : ClientName) (model : ClientModel) :
    Item.stepsOf (typeItems settings name model) = typeSteps settings name model := by
  unfold typeItems typeSteps
  cases model.usesFormData <;> simp [Item.stepsOf_append]

theorem stepsOf_implementationItems (settings : Settings) (name : ClientName) :
    Item.stepsOf (implementationItems settings name) = implementationSteps settings name := by
  have lines := Item.stepsOf_map_line id (builderLines settings name)
  simp only [id_eq] at lines
  simp [implementationItems, implementationSteps, Item.stepsOf_append, lines]

end ServiceClient

end OpenApi

namespace GraphQl.ServiceClient

open Factory (literal)

def implementationItems (settings : Settings) (name : ClientName) (path : String) : List Item :=
  let format := settings.moduleFormat
  Factory.imports format "buildGraphQLClient" ++
    [Factory.function format name
      [.line "const url = new URL(opts.url)",
       .line ("url.pathname = " ++ literal path),
       .block "return buildGraphQLClient(" ((builderLines settings name).map .line) ")"]] ++
    Factory.exports format name

theorem stepsOf_implementationItems (settings : Settings) (name : ClientName) (path : String) :
    Item.stepsOf (implementationItems settings name path) =
      implementationSteps settings name path := by
  have lines := Item.stepsOf_map_line id (builderLines settings name)
  simp only [id_eq] at lines
  simp [implementationItems, implementationSteps, Item.stepsOf_append, lines]

end GraphQl.ServiceClient

end TypedClient
