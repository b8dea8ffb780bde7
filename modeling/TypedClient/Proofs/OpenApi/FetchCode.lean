import TypedClient.Proofs.OpenApi.OperationTokens

/-! The code of the function that performs an operation.

What it reads of its argument and which declared types it names is put together from its statements.
-/

set_option autoImplicit false

namespace TypedClient.OpenApi.FetchClient

open Script

/-- The items are code, with these accesses to the declared types and to the argument. -/
def Shows (items : List Item) (types arguments : List (List String)) : Prop :=
  (Item.tokensOf? items).map (fun tokens => (accesses "Types" tokens, accesses "request" tokens)) =
    some (types, arguments)

section Shows
variable {first rest body : List Item} {text header suffix : String} {tokens more : List Token}
  {types arguments moreTypes moreArguments : List (List String)}

theorem shows_iff : Shows body types arguments ↔ ∃ tokens, Item.tokensOf? body = some tokens ∧
    accesses "Types" tokens = types ∧ accesses "request" tokens = arguments := by
  simp only [Shows, Option.map_eq_some_iff, Prod.mk.injEq]

theorem Shows.append (shows_ : Shows first types arguments)
    (others : Shows rest moreTypes moreArguments) :
    Shows (first ++ rest) (types ++ moreTypes) (arguments ++ moreArguments) := by
  obtain ⟨tokens, found, rfl, rfl⟩ := shows_iff.mp shows_
  obtain ⟨more, behind, rfl, rfl⟩ := shows_iff.mp others
  refine shows_iff.mpr ⟨tokens ++ more, Item.tokensOf?_append found behind, ?_, ?_⟩
  · exact (linewise_accesses "Types").append found more
  · exact (linewise_accesses "request").append found more

theorem Shows.line (reads : Reads text tokens) (types : accesses "Types" tokens = moreTypes)
    (arguments : accesses "request" tokens = moreArguments) :
    Shows [.line text] moreTypes moreArguments := by
  subst types arguments
  refine shows_iff.mpr ⟨_, Item.tokensOf?_line reads, ?_, ?_⟩
  · exact accesses_concat rfl tokens
  · exact accesses_concat rfl tokens

theorem Shows.block (begins : Reads header tokens) (inside : Shows body types arguments)
    (ends : Reads suffix more) :
    Shows [.block header body suffix]
      (accesses "Types" tokens ++ (types ++ accesses "Types" more))
      (accesses "request" tokens ++ (arguments ++ accesses "request" more)) := by
  obtain ⟨between, found, rfl, rfl⟩ := shows_iff.mp inside
  refine shows_iff.mpr ⟨_, Item.tokensOf?_block begins found ends, ?_, ?_⟩
  · exact Item.accesses_block "Types" tokens between more
  · exact Item.accesses_block "request" tokens between more

/-- Commas between lines change nothing. -/
theorem accesses_commaTokens (subject : String) (lines : List (List Token)) :
    accesses subject (commaTokens lines) = lines.flatMap (accesses subject) := by
  induction lines with
  | nil => rfl
  | cons tokens rest ih =>
    cases rest with
    | nil => simpa [commaTokens] using (linewise_accesses subject).concat tokens
    | cons second rest =>
      have first : accesses subject (tokens ++ .mark ',' :: .lineEnd ::
          commaTokens (second :: rest)) =
          accesses subject tokens ++ accesses subject (commaTokens (second :: rest)) := by
        rw [accesses_append rfl, accesses_cons rfl]
      rw [commaTokens, first, ih, ← List.flatMap_cons]
      exact List.cons_ne_nil second rest

theorem shows_commaLines {texts : List String} {types arguments : String → List (List String)}
    (each : ∀ text ∈ texts, ∃ tokens, Reads text tokens ∧ accesses "Types" tokens = types text ∧
      accesses "request" tokens = arguments text) :
    Shows (commaLines texts) (texts.flatMap types) (texts.flatMap arguments) := by
  obtain ⟨lines, reads, types, arguments⟩ : ∃ lines, List.Forall₂ Reads texts lines ∧
      lines.flatMap (accesses "Types") = texts.flatMap types ∧
      lines.flatMap (accesses "request") = texts.flatMap arguments := by
    induction texts with
    | nil => exact ⟨[], .nil, rfl, rfl⟩
    | cons text rest ih =>
      obtain ⟨⟨tokens, reads, named, read⟩, others⟩ := List.forall_mem_cons.mp each
      obtain ⟨lines, further, types, arguments⟩ := ih others
      refine ⟨tokens :: lines, .cons reads further, ?_, ?_⟩
      · rw [List.flatMap_cons, named, types, List.flatMap_cons]
      · rw [List.flatMap_cons, read, arguments, List.flatMap_cons]
  refine shows_iff.mpr ⟨_, tokensOf?_commaLines reads, ?_, ?_⟩
  · rw [accesses_commaTokens, types]
  · rw [accesses_commaTokens, arguments]

end Shows

section Parameters
variable (dialect : Dialect) (parameter : Parameter)

def parameterReads (fullRequest : Bool) (location : Location) (parameter : Parameter) :
    List (List String) :=
  List.replicate 2 (parameterAccess fullRequest location parameter.name).members

theorem accesses_unlessTokens (access : Access) (inside : List Token) :
    accesses "Types" (unlessTokens access inside) = accesses "Types" inside ∧
      accesses "request" (unlessTokens access inside) =
        access.members :: accesses "request" inside := by
  unfold unlessTokens
  rw [Item.accesses_block, Item.accesses_block]
  constructor
  · simp [accesses, accesses_access]
  · simp [accesses, accesses_access, chain]

theorem accesses_headerTokens : accesses "Types" (headerTokens dialect parameter) = [] ∧
    accesses "request" (headerTokens dialect parameter) =
      parameterReads dialect.fullRequest .header parameter := by
  unfold headerTokens
  constructor
  · simp [accesses_unlessTokens, accesses, accesses_access]
  · simp [accesses_unlessTokens, accesses, accesses_access, chain, parameterReads, List.replicate]

theorem accesses_queryItemTokens : accesses "Types" (queryItemTokens dialect parameter) = [] ∧
    accesses "request" (queryItemTokens dialect parameter) =
      parameterReads dialect.fullRequest .query parameter := by
  unfold queryItemTokens
  constructor
  · simp [accesses_unlessTokens, Item.accesses_block, accesses, accesses_access]
  · simp [accesses_unlessTokens, Item.accesses_block, accesses, accesses_access, chain,
      parameterReads, List.replicate]

theorem accesses_queryItemsTokens (parameters : List Parameter) :
    accesses "Types" (queryItemsTokens dialect parameters) = [] ∧
      accesses "request" (queryItemsTokens dialect parameters) =
        parameters.flatMap (parameterReads dialect.fullRequest .query) := by
  have each := accesses_queryItemTokens dialect
  rw [read_queryItemsTokens dialect (linewise_accesses "Types"),
    read_queryItemsTokens dialect (linewise_accesses "request")]
  cases parameters with
  | nil => exact ⟨rfl, rfl⟩
  | cons parameter rest => simp [each, searchTokens, collectedTokens, accesses]

end Parameters

section Body
variable (dialect : Dialect) (model : OperationModel)

theorem accesses_bindings {subject : String} (other : ¬ ['_'] <+: subject.toList)
    (operation : Operation) (rest : List Token) :
    accesses subject ((parameterBindings operation).flatMap Binding.tokens ++ rest) =
      accesses subject rest := by
  have each : ∀ binding ∈ parameterBindings operation, binding.name ≠ subject := by
    rintro binding member rfl
    obtain ⟨name, _, rfl⟩ := List.mem_map.mp member
    exact other ⟨_, (String.toList_append (s := "_")).symm⟩
  revert each
  induction parameterBindings operation with
  | nil =>
    intro _
    rfl
  | cons binding bindings ih =>
    intro each
    obtain ⟨own, others⟩ := List.forall_mem_cons.mp each
    simp [Binding.tokens, accesses, own, ih others]

def bodyTypes : List (List String) :=
  match model.request.body with
  | none => []
  | some body => if body.spread && dialect.typeScript then [[model.requestType]] else []

/-- A spread body is taken out of the whole argument, any other is one of its members. -/
def bodyReads (request : RequestShape) : List (List String) :=
  match request.body with
  | none => []
  | some body => if body.spread then [[]] else [bodyAccess.members]

theorem accesses_spreadTokens :
    accesses "Types" (spreadTokens dialect model ++ [.lineEnd]) =
        (if dialect.typeScript then [[model.requestType]] else []) ∧
      accesses "request" (spreadTokens dialect model ++ [.lineEnd]) = [[]] := by
  rw [accesses_concat rfl, accesses_concat rfl]
  unfold spreadTokens spreadSource
  constructor <;> split <;> simp [accesses, accesses_bindings, chain]

theorem accesses_takenTokens (body : BodyShape) :
    accesses "Types" (takenTokens dialect model body) =
        (if body.spread && dialect.typeScript then [[model.requestType]] else []) ∧
      accesses "request" (takenTokens dialect model body) =
        if body.spread then [[]] else [bodyAccess.members] := by
  obtain ⟨types, arguments⟩ := accesses_spreadTokens dialect model
  unfold takenTokens
  cases body.spread with
  | true => exact ⟨by simpa using types, arguments⟩
  | false => exact ⟨rfl, rfl⟩

theorem accesses_bodyTokens (named : Reads model.requestType [.word model.requestType]) :
    accesses "Types" (bodyTokens dialect model) = bodyTypes dialect model ∧
      accesses "request" (bodyTokens dialect model) = bodyReads model.request := by
  rw [read_bodyTokens dialect model (linewise_accesses "Types") named,
    read_bodyTokens dialect model (linewise_accesses "request") named]
  unfold bodyTypes bodyReads
  cases model.request.body with
  | none => exact ⟨rfl, rfl⟩
  | some body =>
    have taken := accesses_takenTokens dialect model body
    have declared : ∀ multipart : Bool, accesses "Types" (contentTypeTokens multipart) = [] ∧
        accesses "request" (contentTypeTokens multipart) = [] := by
      decide
    simp only [taken, declared, List.append_nil, and_self]

def resultTypes : List (List String) :=
  if dialect.typeScript then [[model.responsesType]] else []

theorem accesses_resultTokens :
    accesses "Types" (resultTokens dialect model) = resultTypes dialect model ∧
      accesses "request" (resultTokens dialect model) = [] := by
  unfold resultTokens castTokens resultTypes
  constructor <;> split_ifs <;> rfl

theorem accesses_optionTokens :
    accesses "Types" (commaTokens (optionTokens dialect model)) = [] ∧
      accesses "request" (commaTokens (optionTokens dialect model)) = [] := by
  rw [accesses_commaTokens, accesses_commaTokens]
  unfold optionTokens
  cases model.request.body with
  | none => cases dialect.withCredentials <;> exact ⟨rfl, rfl⟩
  | some body =>
    dsimp only
    cases body.multipart <;> cases dialect.withCredentials <;> exact ⟨rfl, rfl⟩

/-- The parameters that a url has holes for. -/
def placeholders (parts : List UrlPart) : List String :=
  parts.filterMap fun
    | .parameter name => some name
    | _ => none

def operationReads (fullRequest : Bool) (operation : Operation) (request : RequestShape) :
    List (List String) :=
  let query := operation.parametersIn .query
  (operation.parametersIn .header).flatMap (parameterReads fullRequest .header) ++
    query.flatMap (parameterReads fullRequest .query) ++ bodyReads request ++
    (placeholders (urlParts operation.path (!query.isEmpty))).map fun name =>
      (parameterAccess fullRequest .path name).members

theorem accesses_partTokens (fullRequest : Bool) (begun : List Char) (parts : List UrlPart) :
    accesses "Types" (partTokens fullRequest begun parts) = [] ∧
      accesses "request" (partTokens fullRequest begun parts) =
        (placeholders parts).map fun name => (parameterAccess fullRequest .path name).members := by
  induction parts generalizing begun with
  | nil => exact ⟨rfl, rfl⟩
  | cons part rest ih =>
    cases part with
    | text content => exact ih _
    | parameter name =>
      obtain ⟨types, arguments⟩ := ih []
      simp [partTokens, valueTokens, accesses, accesses_access, chain, placeholders, types, arguments]
    | query =>
      obtain ⟨types, arguments⟩ := ih []
      simp [partTokens, queryTokens, accesses, placeholders, types, arguments]

theorem accesses_fetchTokens (withQuery : Bool) :
    accesses "Types" (fetchTokens dialect model withQuery) = [] ∧
      accesses "request" (fetchTokens dialect model withQuery) =
        (placeholders (urlParts model.operation.path withQuery)).map fun name =>
          (parameterAccess dialect.fullRequest .path name).members := by
  obtain ⟨types, arguments⟩ :=
    accesses_partTokens dialect.fullRequest [] (urlParts model.operation.path withQuery)
  have options := accesses_optionTokens dialect model
  have before : ∀ (subject : String) tokens,
      accesses subject (tokens ++ [.mark ',']) = accesses subject tokens :=
    fun _ tokens => accesses_concat rfl tokens
  unfold fetchTokens urlTokens
  rw [Item.accesses_block, Item.accesses_block]
  simp [accesses, before, types, arguments, options]

theorem shows_operationBody (request : Reads model.requestType [.word model.requestType])
    (responses : Reads model.responsesType [.word model.responsesType]) :
    Shows (operationBody dialect model) (bodyTypes dialect model ++ resultTypes dialect model)
      (operationReads dialect.fullRequest model.operation model.request) := by
  have headers := accesses_headerTokens dialect
  have query := accesses_queryItemsTokens dialect (model.operation.parametersIn .query)
  have body := accesses_bodyTokens dialect model request
  have fetch := accesses_fetchTokens dialect model (!(model.operation.parametersIn .query).isEmpty)
  have result := accesses_resultTokens dialect model
  have defaults : accesses "Types" (defaultTokens dialect) = [] ∧
      accesses "request" (defaultTokens dialect) = [] := by
    unfold defaultTokens
    cases dialect.typeScript <;> exact ⟨rfl, rfl⟩
  have response : accesses "Types" responseTokens = [] ∧ accesses "request" responseTokens = [] :=
    ⟨rfl, rfl⟩
  refine shows_iff.mpr ⟨_, tokensOf?_operationBody dialect model request responses, ?_, ?_⟩
  · rw [read_operationTokens dialect model (linewise_accesses "Types") request]
    simp [headers, query, body, fetch, result, defaults, response]
  · rw [read_operationTokens dialect model (linewise_accesses "request") request]
    simp [headers, query, body, fetch, result, defaults, response, operationReads]

end Body

end TypedClient.OpenApi.FetchClient
