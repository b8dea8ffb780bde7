import TypedClient.OpenApi.Operation
import TypedClient.OpenApi.SchemaMapping
import TypedClient.Settings

/-!
The type of an operation's argument. Parameters are grouped by location, or flattened
with the members of an object body beside them.
-/

set_option autoImplicit false

namespace TypedClient.OpenApi

open TypeScript (Field TypeExpr)

structure BodyShape where
  type : TypeExpr
  required : Bool
  multipart : Bool
  /-- The members of the body stand beside the parameters. -/
  spread : Bool
  deriving Repr

structure RequestShape where
  type : TypeExpr
  /-- Something inside must be supplied. -/
  required : Bool
  body : Option BodyShape
  deriving Repr

def groups : List (Location × String) :=
  [(.path, "path"), (.query, "query"), (.header, "headers")]

def parameterOptional (settings : Settings) (parameter : Parameter) : Bool :=
  (parameter.location == .header && settings.optionalHeaders.contains parameter.name) ||
    !parameter.isRequired

def parameterField (document : Document) (settings : Settings) (parameter : Parameter) :
    Mapping Field := do
  let type ← document.typeOf? settings.propsOptional parameter.schema
  return ⟨parameter.name, type, parameterOptional settings parameter⟩

def isMultipart (mediaType : String) : Bool := Text.startsWith "multipart/form-data" mediaType

def formData : TypeExpr := .reference "FormData"

/-- The body that the first media type of an operation describes. -/
def bodyShape (document : Document) (settings : Settings) (operation : Operation) :
    Mapping (Option BodyShape) :=
  match operation.requestBody with
  | none => return none
  | some body => match body.content with
    | [] => return none
    | (mediaType, schema) :: _ =>
      if isMultipart mediaType then return some ⟨formData, body.required, true, false⟩
      else do
        let type ← document.typeOf? settings.propsOptional schema
        -- The components that the body refers to are declared by now.
        let registry ← get
        let spread := !settings.fullRequest && registry.isObjectLike type
        return some ⟨type, body.required, false, spread⟩

def groupField (document : Document) (settings : Settings) (operation : Operation)
    (group : Location × String) : Mapping (Option Field) := do
  let fields ← (operation.parametersIn group.1).mapM (parameterField document settings)
  if fields.isEmpty then return none
  return some ⟨group.2, .object fields, fields.all (·.optional)⟩

def bodyField (body : BodyShape) : Field := ⟨"body", body.type, !body.required⟩

def groupedRequest (document : Document) (settings : Settings) (operation : Operation)
    (body : Option BodyShape) : Mapping RequestShape := do
  let grouped ← groups.mapM (groupField document settings operation)
  let fields := grouped.filterMap id ++ (body.map bodyField).toList
  return ⟨.object fields, fields.any (!·.optional), body⟩

/-- The first parameter of each name, location after location. -/
def Operation.flatParameters (operation : Operation) : List Parameter :=
  (groups.flatMap fun group => operation.parametersIn group.1).foldl (fun kept parameter =>
    if kept.any (·.name == parameter.name) then kept else kept ++ [parameter]) []

def flatRequest (document : Document) (settings : Settings) (operation : Operation)
    (body : Option BodyShape) : Mapping RequestShape := do
  let fields ← operation.flatParameters.mapM (parameterField document settings)
  let required := fields.any (!·.optional)
  match body with
  | none => return ⟨.object fields, required, none⟩
  | some shape =>
    let type :=
      if shape.spread then
        if fields.isEmpty then shape.type else .intersection [.object fields, shape.type]
      else .object (fields ++ [bodyField shape])
    return ⟨type, required || shape.required, body⟩

def requestShape (document : Document) (settings : Settings) (operation : Operation) :
    Mapping RequestShape := do
  let body ← bodyShape document settings operation
  if settings.fullRequest then groupedRequest document settings operation body
  else flatRequest document settings operation body

end TypedClient.OpenApi
