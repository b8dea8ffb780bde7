import TypedClient.Proofs.OpenApi.FetchCode
import TypedClient.Proofs.Script.FreeNames

/-! The names in the function that performs an operation.

Which globals it refers to depends on the parameters and on the body of the operation, and on what
is made of the responses. All other names it binds itself, or they are two of the module's.
-/

set_option autoImplicit false

namespace TypedClient.OpenApi.FetchClient

open Script

section Access

theorem references_memberTokens (name : String) (rest : List Token) :
    references (memberTokens name ++ rest) = references rest := by
  unfold memberTokens
  split <;> simp [references]

theorem bound_memberTokens (name : String) (rest : List Token) :
    bound (memberTokens name ++ rest) = bound rest := by
  unfold memberTokens
  split <;> simp [bound]

theorem references_access (access : Access) {token : Token} (splits : token.splits = true)
    (rest : List Token) :
    references (access.tokens ++ token :: rest) = "request" :: references rest := by
  have members : ∀ names : List String, references (names.flatMap memberTokens) = [] := by
    intro names
    induction names with
    | nil => rfl
    | cons name names ih => rw [List.flatMap_cons, references_memberTokens, ih]
  -- The argument would be a label if a colon were next.
  have label : ∀ (names : List String) (others : List Token),
      names.flatMap memberTokens ≠ .mark ':' :: others := by
    intro names others
    cases names with
    | nil => nofun
    | cons name names =>
      rw [List.flatMap_cons]
      unfold memberTokens
      split <;> simp
  rw [references_append splits, Access.tokens, references.eq_6, members, List.singleton_append]
  · exact fun _ _ _ same => absurd same (by decide)
  · exact label access.members

theorem bound_access (access : Access) (rest : List Token) :
    bound (access.tokens ++ rest) = bound rest := by
  have members : ∀ names : List String, bound (names.flatMap memberTokens ++ rest) = bound rest := by
    intro names
    induction names with
    | nil => rfl
    | cons name names ih =>
      rw [List.flatMap_cons, List.append_assoc, bound_memberTokens, ih]
  simpa [Access.tokens, bound] using members access.members

end Access

section Parameters
variable (dialect : Dialect) (parameter : Parameter)

theorem references_unlessTokens (access : Access) (inside : List Token) :
    references (unlessTokens access inside) =
      ["if", "request", "undefined"] ++ references inside := by
  unfold unlessTokens
  rw [references_block]
  simp [references, references_access, Token.splits]

theorem references_headerTokens :
    references (headerTokens dialect parameter) =
      ["if", "request", "undefined", "headers", "String", "request"] := by
  unfold headerTokens
  simp [references_unlessTokens, references, references_access, Token.splits]

theorem references_queryItemTokens :
    references (queryItemTokens dialect parameter) = ["if", "request", "undefined", "for", "const",
      "value", "of", "request", "searchParams", "String", "value"] := by
  unfold queryItemTokens
  simp [references_unlessTokens, references_block, references, references_access, Token.splits]

theorem bound_headerTokens : bound (headerTokens dialect parameter) = [] := by
  simp [headerTokens, unlessTokens, blockTokens, bound, bound_access]

theorem bound_queryItemTokens : bound (queryItemTokens dialect parameter) = ["value"] := by
  simp [queryItemTokens, unlessTokens, blockTokens, bound, bound_access]

end Parameters

section Body
variable (dialect : Dialect) (model : OperationModel)

theorem references_bindings (bindings : List Binding) (rest : List Token) :
    references (bindings.flatMap Binding.tokens ++ rest) =
      bindings.map Binding.name ++ references rest := by
  induction bindings with
  | nil => rfl
  | cons binding bindings ih => simp [Binding.tokens, references, ih]

theorem patternNames_bindings (bindings : List Binding) (rest : List Token) :
    patternNames (bindings.flatMap Binding.tokens ++ rest) =
      bindings.map Binding.name ++ patternNames rest := by
  induction bindings with
  | nil => rfl
  | cons binding bindings ih => simp [Binding.tokens, patternNames, ih]

theorem bound_bindings (bindings : List Binding) (rest : List Token) :
    bound (bindings.flatMap Binding.tokens ++ .mark '.' :: rest) = bound (.mark '.' :: rest) := by
  induction bindings with
  | nil => rfl
  | cons binding bindings ih => simp [Binding.tokens, bound, ih]

def takenNames (body : BodyShape) : List String :=
  (if body.spread then (parameterBindings model.operation).map Binding.name else []) ++ ["body"]

theorem references_takenTokens (body : BodyShape) :
    references (takenTokens dialect model body) = "const" :: takenNames model body ++ ["request"] := by
  unfold takenTokens takenNames
  split
  case isTrue =>
    unfold spreadTokens spreadSource
    split <;> simp [references, references_bindings]
  case isFalse => rfl

theorem bound_takenTokens (body : BodyShape) :
    bound (takenTokens dialect model body) = takenNames model body := by
  unfold takenTokens takenNames
  split
  case isTrue =>
    unfold spreadTokens spreadSource
    split <;> simp [bound, patternNames, patternNames_bindings, bound_bindings]
  case isFalse => rfl

def partNames : UrlPart → List String
  | .text _ => []
  | .parameter _ => ["encodeURIComponent", "String", "request"]
  | .query => ["query", "query"]

theorem references_partTokens (fullRequest : Bool) (begun : List Char) (parts : List UrlPart) :
    references (partTokens fullRequest begun parts) = parts.flatMap partNames := by
  induction parts generalizing begun with
  | nil => rfl
  | cons part parts ih =>
    cases part with
    | text content => exact ih _
    | parameter name =>
      simp [partTokens, valueTokens, partNames, references, references_access, Token.splits, ih]
    | query => simp [partTokens, queryTokens, partNames, references, ih]

theorem bound_partTokens (fullRequest : Bool) (begun : List Char) (parts : List UrlPart)
    (rest : List Token) : bound (partTokens fullRequest begun parts ++ rest) = bound rest := by
  induction parts generalizing begun with
  | nil => simp [partTokens, bound]
  | cons part parts ih =>
    cases part with
    | text content => exact ih _
    | parameter name => simp [partTokens, valueTokens, bound, bound_access, ih]
    | query => simp [partTokens, queryTokens, bound, ih]

theorem references_commaTokens (lines : List (List Token)) :
    references (commaTokens lines) = lines.flatMap references := by
  induction lines with
  | nil => rfl
  | cons tokens rest ih =>
    cases rest with
    | nil => simpa [commaTokens] using linewise_references.concat tokens
    | cons second rest =>
      have splits : Token.splits (.mark ',') = true := rfl
      have first := references_append splits tokens (.lineEnd :: commaTokens (second :: rest))
      rw [references_cons rfl, ih] at first
      exact first

def sentNames : List String :=
  match model.request.body with
  | none => []
  | some body => if body.multipart then ["body"] else ["JSON", "body"]

theorem references_optionTokens :
    references (commaTokens (optionTokens dialect model)) = "headers" :: sentNames model := by
  rw [references_commaTokens]
  unfold optionTokens sentNames
  cases model.request.body with
  | none => cases dialect.withCredentials <;> rfl
  | some body =>
    dsimp only
    cases body.multipart <;> cases dialect.withCredentials <;> rfl

theorem references_fetchTokens (withQuery : Bool) :
    references (fetchTokens dialect model withQuery) =
      ["const", "response", "await", "globalThis", "url"] ++
        (urlParts model.operation.path withQuery).flatMap partNames ++
        "headers" :: sentNames model := by
  unfold fetchTokens urlTokens
  rw [references_block, references_optionTokens]
  simp [references, references_append, Token.splits, references_partTokens]

theorem bound_fetchTokens (withQuery : Bool) :
    bound (fetchTokens dialect model withQuery) = ["response"] := by
  have options : bound (commaTokens (optionTokens dialect model)) = [] := by
    unfold optionTokens
    cases model.request.body with
    | none => cases dialect.withCredentials <;> rfl
    | some body =>
      dsimp only
      cases body.multipart <;> cases dialect.withCredentials <;> rfl
  have read := tokensOf?_commaLines (reads_fetchOptions dialect model)
  unfold fetchTokens urlTokens
  rw [linewise_bound.block read, options]
  simp [bound, bound_partTokens]

theorem references_resultTokens :
    references (resultTokens dialect model) =
      if dialect.fullResponse then ["return", "response", "Object", "response", "responseBody"]
      else ["if", "response", "throw", "new", "Error", "response", "response", "return",
        "responseBody"] := by
  unfold resultTokens castTokens
  split_ifs <;> rfl

theorem bound_resultTokens : bound (resultTokens dialect model) = [] := by
  unfold resultTokens castTokens
  split_ifs <;> rfl

theorem references_defaultTokens :
    references (defaultTokens dialect) =
      if dialect.typeScript then ["const", "Record", "string", "string", "defaultHeaders"]
      else ["const", "headers", "defaultHeaders"] := by
  unfold defaultTokens
  split_ifs <;> rfl

theorem bound_defaultTokens : bound (defaultTokens dialect) = ["headers"] := by
  unfold defaultTokens
  split_ifs <;> rfl

end Body

section Operation
variable (dialect : Dialect) (model : OperationModel)

def operationGlobals : List String :=
  let query := model.operation.parametersIn .query
  ["globalThis"] ++
    (if (model.operation.parametersIn .header).isEmpty then [] else ["undefined", "String"]) ++
    (if query.isEmpty then [] else ["URLSearchParams", "undefined", "String"]) ++
    (match model.request.body with
      | none => []
      | some body => if body.multipart then [] else ["undefined", "JSON"]) ++
    (if (placeholders (urlParts model.operation.path (!query.isEmpty))).isEmpty then []
      else ["encodeURIComponent", "String"]) ++
    [if dialect.fullResponse then "Object" else "Error"]

def operationLocals : List String :=
  let query := model.operation.parametersIn .query
  ["headers"] ++
    ((if query.isEmpty then [] else
      ["searchParams"] ++ (query.flatMap (fun _ => ["value"]) ++ ["query"])) ++
    ((match model.request.body with
      | none => []
      | some body => takenNames model body) ++ ["response", "responseBody"]))

def bodyNames : List String :=
  match model.request.body with
  | none => []
  | some body => "const" :: takenNames model body ++ ["request"] ++
    if body.multipart then [] else ["if", "body", "undefined", "headers"]

section Tokens
variable {dialect model} (request : Reads model.requestType [.word model.requestType])
include request

theorem bound_operationTokens : bound (operationTokens dialect model) = operationLocals model := by
  have declared : ∀ multipart, bound (contentTypeTokens multipart) = [] := by decide
  have none : (model.operation.parametersIn .header).flatMap (fun _ => ([] : List String)) = [] :=
    List.flatMap_eq_nil_iff.mpr fun _ _ => rfl
  rw [read_operationTokens dialect model linewise_bound request,
    read_queryItemsTokens dialect linewise_bound, read_bodyTokens dialect model linewise_bound request]
  simp only [bound_defaultTokens, bound_headerTokens, none, bound_queryItemTokens,
    bound_takenTokens, declared, bound_fetchTokens, bound_resultTokens, List.append_nil, List.nil_append]
  rfl

theorem references_bodyTokens : references (bodyTokens dialect model) = bodyNames model := by
  have declared : ∀ multipart, references (contentTypeTokens multipart) =
      if multipart then [] else ["if", "body", "undefined", "headers"] := by decide
  rw [read_bodyTokens dialect model linewise_references request]
  simp only [references_takenTokens, declared]
  rfl

end Tokens

section Free
variable {dialect model} {name : String}

theorem not_mem_cutPath (before : List Char) (begun : Option (List Char)) (rest : List Char) :
    UrlPart.query ∉ cutPath before begun rest := by
  fun_induction cutPath before begun rest <;> simp_all

theorem divides_partNames {locals : List String} (path : String) (withQuery : Bool)
    (argument : "request" ∈ locals) (query : withQuery = true → "query" ∈ locals) :
    Divides locals
      (if (placeholders (urlParts path withQuery)).isEmpty then []
        else ["encodeURIComponent", "String"])
      ((urlParts path withQuery).flatMap partNames) := by
  constructor
  · -- A part of the url uses globals if it has a placeholder, and else only what is bound.
    intro word member _
    obtain ⟨part, listed, inside⟩ := List.mem_flatMap.mp member
    cases part with
    | text content => cases inside
    | parameter name =>
      have held : name ∈ placeholders (urlParts path withQuery) :=
        List.mem_filterMap.mpr ⟨_, listed, rfl⟩
      rw [if_neg fun none => List.ne_nil_of_mem held (List.isEmpty_iff.mp none)]
      have each : ∀ word ∈ ["encodeURIComponent", "String", "request"],
          word = "request" ∨ word ∈ ["encodeURIComponent", "String"] := by
        decide
      obtain rfl | global := each word inside
      · exact .inl argument
      · exact .inr global
    | query =>
      obtain rfl : word = "query" := by simpa [partNames] using inside
      refine .inl (query ?_)
      unfold urlParts at listed
      cases withQuery with
      | true => rfl
      | false =>
        rw [if_neg Bool.false_ne_true, List.append_nil] at listed
        exact absurd listed (not_mem_cutPath _ _ _)
  · split
    case isTrue => exact List.nil_subset _
    case isFalse some =>
      intro word member
      obtain ⟨name, held⟩ := List.exists_mem_of_ne_nil _ fun none => some (List.isEmpty_iff.mpr none)
      obtain ⟨part, listed, found⟩ := List.mem_filterMap.mp held
      cases part with
      | text content => cases found
      | query => cases found
      | parameter name =>
        have each : ["encodeURIComponent", "String"] ⊆
            ["encodeURIComponent", "String", "request"] := by
          decide
        exact List.mem_flatMap.mpr ⟨_, listed, each member⟩

def operationBound (model : OperationModel) : List String :=
  ["url", "request"] ++ operationLocals model

def commonBound : List String := ["url", "request", "headers", "response", "responseBody"]

theorem commonBound_subset (model : OperationModel) : commonBound ⊆ operationBound model := by
  simp [commonBound, operationBound, operationLocals]

theorem query_bound {parameter : Parameter} {rest : List Parameter}
    (query : model.operation.parametersIn .query = parameter :: rest) :
    ["searchParams", "value", "query"] ⊆ operationBound model := by
  simp [operationBound, operationLocals, query]

theorem takenNames_bound {body : BodyShape} (sends : model.request.body = some body) :
    takenNames model body ⊆ operationBound model := by
  intro name member
  simp [operationBound, operationLocals, sends, member]

theorem body_bound {body : BodyShape} (sends : model.request.body = some body) :
    ["body"] ⊆ operationBound model :=
  List.Subset.trans (List.subset_append_right _ _) (takenNames_bound sends)

theorem divides_queryItems :
    Divides (operationBound model)
      (if (model.operation.parametersIn .query).isEmpty then []
        else ["URLSearchParams", "undefined", "String"])
      (if (model.operation.parametersIn .query).isEmpty then [] else references searchTokens ++
        ((model.operation.parametersIn .query).flatMap (fun _ => ["if", "request", "undefined", "for",
          "const", "value", "of", "request", "searchParams", "String", "value"]) ++
        references collectedTokens)) := by
  cases query : model.operation.parametersIn .query with
  | nil => exact .nil
  | cons parameter rest =>
    have bound : commonBound ++ ["searchParams", "value", "query"] ⊆ operationBound model :=
      List.append_subset.mpr ⟨commonBound_subset model, query_bound query⟩
    have begins : Divides (commonBound ++ ["searchParams", "value", "query"]) ["URLSearchParams"]
        (references searchTokens) := ⟨by decide, by decide⟩
    have each : Divides (commonBound ++ ["searchParams", "value", "query"]) ["undefined", "String"]
        ["if", "request", "undefined", "for", "const", "value", "of", "request", "searchParams",
          "String", "value"] := ⟨by decide, by decide⟩
    have ends : Divides (commonBound ++ ["searchParams", "value", "query"]) []
        (references collectedTokens) := ⟨by decide, by decide⟩
    exact (begins.append ((each.flatMap (parameter :: rest)).append ends)).widen bound

def unlessForm (model : OperationModel) (name : String) : List String :=
  match model.request.body with
  | none => []
  | some body => if body.multipart then [] else [name]

theorem divides_bodyNames :
    Divides (operationBound model) (unlessForm model "undefined") (bodyNames model) := by
  unfold bodyNames unlessForm
  cases sends : model.request.body with
  | none => exact .nil
  | some body =>
    have constant : Divides commonBound [] ["const"] := ⟨by decide, by decide⟩
    have taken : Divides (takenNames model body) [] (takenNames model body) :=
      ⟨fun _ member _ => .inl member, List.nil_subset _⟩
    have argument : Divides commonBound [] ["request"] := ⟨by decide, by decide⟩
    have declared : Divides (commonBound ++ ["body"]) (if body.multipart then [] else ["undefined"])
        (if body.multipart then [] else ["if", "body", "undefined", "headers"]) := by
      split
      case isTrue => exact .nil
      case isFalse => exact ⟨by decide, by decide⟩
    have common := commonBound_subset model
    have held := List.append_subset.mpr ⟨common, body_bound sends⟩
    exact (((constant.widen common).append (taken.widen (takenNames_bound sends))).append
      (argument.widen common)).append (declared.widen held)

theorem divides_sentNames :
    Divides (operationBound model) (unlessForm model "JSON") (sentNames model) := by
  unfold sentNames unlessForm
  cases sends : model.request.body with
  | none => exact .nil
  | some body =>
    have sent : Divides ["body"] (if body.multipart then [] else ["JSON"])
        (if body.multipart then ["body"] else ["JSON", "body"]) := by
      split <;> exact ⟨by decide, by decide⟩
    exact sent.widen (body_bound sends)

theorem divides_fetchTokens (dialect : Dialect) :
    let withQuery := !(model.operation.parametersIn .query).isEmpty
    Divides (operationBound model)
      (["globalThis"] ++
        (if (placeholders (urlParts model.operation.path withQuery)).isEmpty then []
          else ["encodeURIComponent", "String"]) ++
        unlessForm model "JSON")
      (references (fetchTokens dialect model withQuery)) := by
  have calls : Divides commonBound ["globalThis"]
      ["const", "response", "await", "globalThis", "url"] := ⟨by decide, by decide⟩
  have options : Divides commonBound [] ["headers"] := ⟨by decide, by decide⟩
  have argument : "request" ∈ operationBound model := commonBound_subset model (by decide)
  have query : (!(model.operation.parametersIn .query).isEmpty) = true →
      "query" ∈ operationBound model := by
    cases query : model.operation.parametersIn .query with
    | nil => exact nofun
    | cons parameter rest => exact fun _ => query_bound query (by decide)
  have common := commonBound_subset model
  intro withQuery
  rw [references_fetchTokens]
  exact ((calls.widen common).append (divides_partNames _ _ argument query)).append
    ((options.widen common).append divides_sentNames)

/-- A body has two globals: one where it is taken out, one where it is sent. -/
theorem operationGlobals_eq (dialect : Dialect) (model : OperationModel) :
    operationGlobals dialect model =
      ["globalThis"] ++
        (if (model.operation.parametersIn .header).isEmpty then [] else ["undefined", "String"]) ++
        (if (model.operation.parametersIn .query).isEmpty then []
          else ["URLSearchParams", "undefined", "String"]) ++
        (unlessForm model "undefined" ++ unlessForm model "JSON") ++
        (if (placeholders (urlParts model.operation.path
            (!(model.operation.parametersIn .query).isEmpty))).isEmpty then []
          else ["encodeURIComponent", "String"]) ++
        [if dialect.fullResponse then "Object" else "Error"] := by
  unfold operationGlobals unlessForm
  cases model.request.body with
  | none => rfl
  | some body =>
    dsimp only
    cases body.multipart <;> rfl

theorem divides_operationTokens (request : Reads model.requestType [.word model.requestType]) :
    Divides (operationBound model)
      (["defaultHeaders", "readBody"] ++ operationGlobals dialect model)
      (references (operationTokens dialect model)) := by
  -- Each statement is divided by itself, with the names that all operations bind.
  have default : Divides commonBound ["defaultHeaders"]
      (if dialect.typeScript then ["const", "Record", "string", "string", "defaultHeaders"]
        else ["const", "headers", "defaultHeaders"]) := by
    split <;> exact ⟨by decide, by decide⟩
  have header : Divides commonBound ["undefined", "String"]
      ["if", "request", "undefined", "headers", "String", "request"] := ⟨by decide, by decide⟩
  have response : Divides commonBound ["readBody"] (references responseTokens) :=
    ⟨by decide, by decide⟩
  have result : Divides commonBound [if dialect.fullResponse then "Object" else "Error"]
      (if dialect.fullResponse then ["return", "response", "Object", "response", "responseBody"]
        else ["if", "response", "throw", "new", "Error", "response", "response", "return",
          "responseBody"]) := by
    split <;> exact ⟨by decide, by decide⟩
  have common := commonBound_subset model
  have found := (default.widen common).append
    (((header.widen common).flatMap (model.operation.parametersIn .header)).append
    (divides_queryItems.append (divides_bodyNames.append ((divides_fetchTokens dialect).append
    ((response.widen common).append (result.widen common))))))
  rw [read_operationTokens dialect model linewise_references request,
    read_queryItemsTokens dialect linewise_references, references_bodyTokens request,
    references_defaultTokens, references_resultTokens]
  simp only [references_headerTokens, references_queryItemTokens]
  apply Divides.reorder found
  -- The globals are listed by what causes them, not in the order of the statements.
  intro name
  rw [operationGlobals_eq]
  simp only [List.mem_append, List.mem_cons, List.not_mem_nil, or_false]
  exact iff_of_eq (by ac_rfl)

/-- Every global that a client can refer to. -/
def globalNames : List String :=
  ["globalThis", "undefined", "String", "URLSearchParams", "JSON", "encodeURIComponent", "Object",
    "Error"]

theorem operationGlobals_subset (dialect : Dialect) (model : OperationModel) :
    operationGlobals dialect model ⊆ globalNames := by
  unfold operationGlobals
  simp only [List.append_subset]
  refine ⟨⟨⟨⟨⟨by decide, ?header⟩, ?query⟩, ?body⟩, ?placeholder⟩, ?result⟩
  case header => split <;> decide
  case query => split <;> decide
  case body =>
    cases model.request.body with
    | none => decide
    | some body =>
      dsimp only
      split <;> decide
  case placeholder => split <;> decide
  case result => split <;> decide

/-- What an operation binds begins with an underscore or is one of a few names. -/
theorem operationBound_cases (model : OperationModel) :
    ∀ name ∈ operationBound model, ['_'] <+: name.toList ∨
      name ∈ commonBound ++ ["searchParams", "value", "query", "body"] := by
  unfold operationBound operationLocals
  simp only [List.forall_mem_append]
  refine ⟨by decide, by decide, ?query, ?body, by decide⟩
  case query =>
    split
    case isTrue => exact List.forall_mem_nil _
    case isFalse =>
      refine List.forall_mem_append.mpr ⟨by decide, List.forall_mem_append.mpr ⟨?_, by decide⟩⟩
      intro name member
      obtain ⟨_, _, inside⟩ := List.mem_flatMap.mp member
      obtain rfl := List.mem_singleton.mp inside
      decide
  case body =>
    cases model.request.body with
    | none => exact List.forall_mem_nil _
    | some body =>
      refine List.forall_mem_append.mpr ⟨?_, by decide⟩
      split
      case isTrue =>
        intro name member
        obtain ⟨binding, listed, rfl⟩ := List.mem_map.mp member
        obtain ⟨parameter, _, rfl⟩ := List.mem_map.mp listed
        exact .inl ⟨_, (String.toList_append (s := "_")).symm⟩
      case isFalse => exact List.forall_mem_nil _

theorem mem_freeNames_operationTokens_iff
    (request : Reads model.requestType [.word model.requestType]) :
    name ∈ freeNames ["url", "request"] (operationTokens dialect model) ↔
      name ∈ ["defaultHeaders", "readBody"] ++ operationGlobals dialect model := by
  have locals : bound (operationTokens dialect model) = _ := bound_operationTokens request
  apply mem_freeNames_iff_of_divides
  · rw [locals]
    exact divides_operationTokens request
  · intro name member
    rw [locals]
    -- The names taken out of an argument are arbitrary, but they all begin with an underscore.
    have closed : ∀ name ∈ ["defaultHeaders", "readBody"] ++ globalNames,
        isVariable name = true ∧ ¬ ['_'] <+: name.toList ∧
          name ∉ commonBound ++ ["searchParams", "value", "query", "body"] := by
      decide
    have listed : name ∈ ["defaultHeaders", "readBody"] ++ globalNames :=
      (List.mem_append.mp member).elim (List.mem_append_left _)
        fun inside => List.mem_append_right _ (operationGlobals_subset dialect model inside)
    obtain ⟨variable_, plain, other⟩ := closed name listed
    exact ⟨variable_, fun inside => (operationBound_cases model name inside).elim plain other⟩

end Free

end Operation

end TypedClient.OpenApi.FetchClient
