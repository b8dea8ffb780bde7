import TypedClient.Proofs.OpenApi.FetchTrees
import TypedClient.Proofs.Lists
import TypedClient.Proofs.OpenApi.UrlTemplate
import TypedClient.Proofs.Script.Items

/-! The tokens of the function that performs an operation.

Whatever the operation and the dialect are, the function is code, and the tokens of its statements
do not depend on how the texts in it are quoted.
-/

set_option autoImplicit false

namespace TypedClient.OpenApi.FetchClient

open Factory (literal)
open Script

theorem reads_empty : Reads "" [] := .inl fun _ => rfl

section Parameters
variable (dialect : Dialect) (parameter : Parameter)

def unlessTokens (access : Access) (inside : List Token) : List Token :=
  blockTokens
    (([.word "if", .mark '('] : List Token) ++ access.tokens ++
      ([.mark '!', .mark '=', .mark '=', .word "undefined", .mark ')'] : List Token))
    inside []

theorem tokensOf?_unlessMissing (access : Access) {body : List Item} {inside : List Token}
    (found : Item.tokensOf? body = some inside) :
    Item.tokensOf? [unlessMissing access body] = some (unlessTokens access inside) := by
  have opens : Whole "if (" [.word "if", .mark '('] := fun _ => rfl
  have closes : Whole " !== undefined)"
      [.mark '!', .mark '=', .mark '=', .word "undefined", .mark ')'] := fun _ => rfl
  have header := (opens.append_reads access.reads_text).append_whole closes rfl
  exact Item.tokensOf?_block (.inl header) found reads_empty

def headerTokens : List Token :=
  let access := parameterAccess dialect.fullRequest .header parameter.name
  unlessTokens access
    (([.word "headers", .mark '[', .text parameter.name, .mark ']', .mark '=', .word "String",
      .mark '('] : List Token) ++ access.tokens ++ ([.mark ')', .lineEnd] : List Token))

theorem tokensOf?_headerItem :
    Item.tokensOf? [headerItem dialect parameter] = some (headerTokens dialect parameter) := by
  have opens : Whole "headers[" [.word "headers", .mark '['] := fun _ => rfl
  have sets : Whole "] = String(" [.mark ']', .mark '=', .word "String", .mark '('] := fun _ => rfl
  have closes : Whole ")" [.mark ')'] := fun _ => rfl
  have access := (parameterAccess dialect.fullRequest .header parameter.name).reads_text
  have line := (((opens.append (whole_literal parameter.name)).append sets).append_reads
    access).append_whole closes rfl
  apply tokensOf?_unlessMissing
  simpa [headerLine] using Item.tokensOf?_line (.inl line)

def queryItemTokens : List Token :=
  let access := parameterAccess dialect.fullRequest .query parameter.name
  unlessTokens access (blockTokens
    (([.word "for", .mark '(', .word "const", .word "value", .word "of", .mark '['] : List Token) ++
      access.tokens ++
      ([.mark ']', .mark '.', .word "flat", .mark '(', .mark ')', .mark ')'] : List Token))
    [.word "searchParams", .mark '.', .word "append", .mark '(', .text parameter.name, .mark ',',
      .word "String", .mark '(', .word "value", .mark ')', .mark ')', .lineEnd] [])

theorem tokensOf?_queryItem :
    Item.tokensOf? [queryItem dialect parameter] = some (queryItemTokens dialect parameter) := by
  have opens : Whole "for (const value of [" [.word "for", .mark '(', .word "const", .word "value",
      .word "of", .mark '['] := fun _ => rfl
  have closes : Whole "].flat())" [.mark ']', .mark '.', .word "flat", .mark '(', .mark ')',
      .mark ')'] := fun _ => rfl
  have access := (parameterAccess dialect.fullRequest .query parameter.name).reads_text
  have header := (opens.append_reads access).append_whole closes rfl
  have begins : Whole "searchParams.append(" [.word "searchParams", .mark '.', .word "append",
      .mark '('] := fun _ => rfl
  have ends : Whole ", String(value))" [.mark ',', .word "String", .mark '(', .word "value", .mark ')',
      .mark ')'] := fun _ => rfl
  have line := (begins.append (whole_literal parameter.name)).append ends
  apply tokensOf?_unlessMissing
  exact Item.tokensOf?_block (.inl header) (Item.tokensOf?_line (.inl line)) reads_empty

def searchTokens : List Token :=
  [.word "const", .word "searchParams", .mark '=', .word "new", .word "URLSearchParams", .mark '(',
    .mark ')', .lineEnd]

def collectedTokens : List Token :=
  [.word "const", .word "query", .mark '=', .word "searchParams", .mark '.', .word "toString",
    .mark '(', .mark ')', .lineEnd]

def queryItemsTokens (parameters : List Parameter) : List Token :=
  if parameters.isEmpty then []
  else searchTokens ++ (parameters.flatMap (queryItemTokens dialect) ++ collectedTokens)

theorem tokensOf?_searchParams :
    Item.tokensOf? [.line "const searchParams = new URLSearchParams()"] = some searchTokens :=
  rfl

theorem tokensOf?_queryItems (parameters : List Parameter) :
    Item.tokensOf? (queryItems dialect parameters) = some (queryItemsTokens dialect parameters) := by
  unfold queryItems queryItemsTokens
  split
  case isTrue => rfl
  case isFalse =>
    have ends : Item.tokensOf? [.line "const query = searchParams.toString()"] =
        some collectedTokens := rfl
    have each := Item.tokensOf?_map parameters (tokensOf?_queryItem dialect)
    have found := Item.tokensOf?_append tokensOf?_searchParams (Item.tokensOf?_append each ends)
    simpa using found

theorem read_queryItemsTokens {β : Type} {read : List Token → List β} (linewise : Linewise read)
    (parameters : List Parameter) :
    read (queryItemsTokens dialect parameters) =
      if parameters.isEmpty then [] else read searchTokens ++
        (parameters.flatMap (fun parameter => read (queryItemTokens dialect parameter)) ++
          read collectedTokens) := by
  unfold queryItemsTokens
  split
  case isTrue => exact linewise.nil
  case isFalse =>
    have each := Item.tokensOf?_map parameters (tokensOf?_queryItem dialect)
    rw [linewise.append tokensOf?_searchParams, linewise.append each,
      linewise.flatMap parameters (tokensOf?_queryItem dialect)]

end Parameters

section Body
variable (dialect : Dialect) (model : OperationModel)

def Binding.tokens (binding : Binding) : List Token :=
  [.text binding.member, .mark ':', .word binding.name, .mark ',']

theorem reads_underscore (name : String) (usable : Text.Usable name.toList) :
    Reads ("_" ++ name) [.word ("_" ++ name)] := by
  apply reads_word
  · intro empty
    have spelled := congrArg String.toList empty
    rw [String.toList_append] at spelled
    cases spelled
  · rw [String.toList_append]
    exact Text.usable_append.mpr ⟨Text.usable_of_all rfl, usable⟩

theorem reads_bindings {bindings : List Binding}
    (named : ∀ binding ∈ bindings, Reads binding.name [.word binding.name]) :
    Reads (Text.join ", " (bindings.map Binding.text ++ ["...body"]))
      (bindings.flatMap Binding.tokens ++ [.mark '.', .mark '.', .mark '.', .word "body"]) := by
  induction bindings with
  | nil =>
    have dots : Whole "..." [.mark '.', .mark '.', .mark '.'] := fun _ => rfl
    exact dots.append_reads (reads_identifier rfl : Reads "body" _)
  | cons binding rest ih =>
    obtain ⟨own, others⟩ := List.forall_mem_cons.mp named
    have colon : Whole ": " [.mark ':'] := fun _ => rfl
    have comma : Whole ", " [.mark ','] := fun _ => rfl
    have entry := ((whole_literal binding.member).append colon).append_reads own
    have found := (entry.append_whole comma rfl).append_reads (ih others)
    have joined : Text.join ", " ((binding :: rest).map Binding.text ++ ["...body"]) =
        binding.text ++ ", " ++ Text.join ", " (rest.map Binding.text ++ ["...body"]) := by
      cases rest <;> rfl
    rw [joined]
    exact found

theorem reads_parameterBindings (operation : Operation) :
    ∀ binding ∈ parameterBindings operation, Reads binding.name [.word binding.name] := by
  intro binding member
  obtain ⟨name, _, rfl⟩ := List.mem_map.mp member
  exact reads_underscore _ (Text.toIdentifier_cases name).usable

theorem reads_declaredType {name : String} {tokens : List Token} (reads : Reads name tokens) :
    Reads (declaredType name) (.word "Types" :: .mark '.' :: tokens) := by
  have types : Whole "Types." [.word "Types", .mark '.'] := fun _ => rfl
  exact types.append_reads reads

def spreadSource : List Token :=
  if dialect.typeScript then
    [.mark '(', .word "request", .mark '?', .mark '?', .mark '\x7b', .mark '\x7d', .mark ')',
      .word "as", .word "Types", .mark '.', .word model.requestType]
  else [.word "request", .mark '?', .mark '?', .mark '\x7b', .mark '\x7d']

def spreadTokens : List Token :=
  .word "const" :: .mark '\x7b' :: ((parameterBindings model.operation).flatMap Binding.tokens ++
    .mark '.' :: .mark '.' :: .mark '.' :: .word "body" :: .mark '\x7d' :: .mark '=' ::
      spreadSource dialect model)

theorem tokensOf?_spreadBodyLine (named : Reads model.requestType [.word model.requestType]) :
    Item.tokensOf? [spreadBodyLine dialect model] =
      some (spreadTokens dialect model ++ [.lineEnd]) := by
  have source : Reads (if dialect.typeScript then
      "(request ?? \x7b\x7d) as " ++ declaredType model.requestType
      else "request ?? \x7b\x7d") (spreadSource dialect model) := by
    unfold spreadSource
    split
    case isTrue =>
      have cast : Whole "(request ?? \x7b\x7d) as " [.mark '(', .word "request", .mark '?', .mark '?',
          .mark '\x7b', .mark '\x7d', .mark ')', .word "as"] := fun _ => rfl
      exact cast.append_reads (reads_declaredType named)
    case isFalse => exact .inl fun _ => rfl
  have space : Whole " " [] := fun _ => rfl
  have begins : Whole "const " [.word "const"] := fun _ => rfl
  have equals : Whole " = " [.mark '='] := fun _ => rfl
  have bindings := reads_bindings (reads_parameterBindings model.operation)
  have pattern := Reads.braces (.inl ((space.append_reads bindings).append_whole space rfl))
  have line := ((begins.append pattern).append equals).append_reads source
  have opens : "const \x7b " = "const " ++ ("\x7b" ++ " ") := rfl
  have closes : " \x7d = " = " " ++ ("\x7d" ++ " = ") := rfl
  unfold spreadBodyLine spreadBodyText
  simp only [opens, closes, String.append_assoc] at line ⊢
  rw [Item.tokensOf?_line line]
  simp [spreadTokens]

def takenTokens (body : BodyShape) : List Token :=
  if body.spread then spreadTokens dialect model ++ [.lineEnd]
  else ([.word "const", .word "body", .mark '='] : List Token) ++ bodyAccess.tokens ++ [.lineEnd]

def contentTypeTokens (multipart : Bool) : List Token :=
  if multipart then []
  else
    blockTokens [.word "if", .mark '(', .word "body", .mark '!', .mark '=', .mark '=',
        .word "undefined", .mark ')']
      [.word "headers", .mark '[', .text "Content-Type", .mark ']', .mark '=',
        .text "application/json", .lineEnd] []

def bodyTokens : List Token :=
  match model.request.body with
  | none => []
  | some body => takenTokens dialect model body ++ contentTypeTokens body.multipart

theorem tokensOf?_taken (body : BodyShape)
    (named : Reads model.requestType [.word model.requestType]) :
    Item.tokensOf? [if body.spread then spreadBodyLine dialect model
      else .line ("const body = " ++ bodyAccess.text)] = some (takenTokens dialect model body) := by
  unfold takenTokens
  split
  case isTrue => exact tokensOf?_spreadBodyLine dialect model named
  case isFalse =>
    have opens : Whole "const body = " [.word "const", .word "body", .mark '='] := fun _ => rfl
    exact Item.tokensOf?_line (opens.append_reads bodyAccess.reads_text)

theorem tokensOf?_bodyItems (named : Reads model.requestType [.word model.requestType]) :
    Item.tokensOf? (bodyItems dialect model) = some (bodyTokens dialect model) := by
  unfold bodyItems bodyTokens
  cases model.request.body with
  | none => rfl
  | some body =>
    have declared : Item.tokensOf? (if body.multipart then [] else
        [.block "if (body !== undefined)"
          [.line ("headers[" ++ literal "Content-Type" ++ "] = " ++ literal "application/json")] ""]) =
        some (contentTypeTokens body.multipart) := by
      unfold contentTypeTokens
      split <;> rfl
    exact Item.tokensOf?_append (tokensOf?_taken dialect model body named) declared

theorem read_bodyTokens {β : Type} {read : List Token → List β} (linewise : Linewise read)
    (named : Reads model.requestType [.word model.requestType]) :
    read (bodyTokens dialect model) = match model.request.body with
      | none => []
      | some body => read (takenTokens dialect model body) ++ read (contentTypeTokens body.multipart) := by
  unfold bodyTokens
  cases model.request.body with
  | none => exact linewise.nil
  | some body => exact linewise.append (tokensOf?_taken dialect model body named) _

end Body

section Response
variable (dialect : Dialect) (model : OperationModel)

def commaTokens : List (List Token) → List Token
  | [] => []
  | [tokens] => tokens ++ [.lineEnd]
  | tokens :: rest => tokens ++ .mark ',' :: .lineEnd :: commaTokens rest

theorem tokensOf?_commaLines {texts : List String} {lines : List (List Token)}
    (each : List.Forall₂ Reads texts lines) :
    Item.tokensOf? (commaLines texts) = some (commaTokens lines) := by
  induction each with
  | nil => rfl
  | @cons text tokens texts lines reads others ih =>
    cases others with
    | nil => exact Item.tokensOf?_line reads
    | cons second others =>
      have comma : Whole "," [.mark ','] := fun _ => rfl
      have first := Item.tokensOf?_line (.inl (reads.append_whole comma rfl))
      rw [List.append_assoc, List.singleton_append] at first
      simpa [commaLines, commaTokens] using Item.tokensOf?_append first ih

def optionTokens : List (List Token) :=
  let body : List (List Token) := match model.request.body with
    | none => []
    | some body =>
      if body.multipart then [[.word "body"]]
      else [[.word "body", .mark ':', .word "JSON", .mark '.', .word "stringify", .mark '(',
        .word "body", .mark ')']]
  ([[.word "method", .mark ':', .text model.operation.method.upperText], [.word "headers"]] :
    List (List Token)) ++ body ++
    if dialect.withCredentials then [[.word "credentials", .mark ':', .text "include"]] else []

theorem reads_fetchOptions : List.Forall₂ Reads (fetchOptions dialect model)
    (optionTokens dialect model) := by
  have method : Whole "method: " [.word "method", .mark ':'] := fun _ => rfl
  have first : List.Forall₂ Reads ["method: " ++ literal model.operation.method.upperText, "headers"]
      [[.word "method", .mark ':', .text model.operation.method.upperText], [.word "headers"]] :=
    .cons (.inl (method.append (whole_literal _))) (.cons (reads_identifier rfl) .nil)
  refine List.rel_append (List.rel_append first ?body) ?credentials
  case body =>
    cases model.request.body with
    | none => exact .nil
    | some body =>
      dsimp only
      split
      case isTrue => exact .cons (reads_identifier rfl) .nil
      case isFalse => exact .cons (.inl fun _ => rfl) .nil
  case credentials =>
    split
    case isTrue => exact .cons (.inl fun _ => rfl) .nil
    case isFalse => exact .nil

def fetchTokens (withQuery : Bool) : List Token :=
  blockTokens
    (([.word "const", .word "response", .mark '=', .word "await", .word "globalThis", .mark '.',
      .word "fetch", .mark '('] : List Token) ++
      urlTokens dialect.fullRequest model.operation.path withQuery ++ [.mark ','])
    (commaTokens (optionTokens dialect model)) [.mark ')']

theorem tokensOf?_fetch (withQuery : Bool) :
    Item.tokensOf? [.block ("const response = await globalThis.fetch(" ++
      urlTemplate dialect.fullRequest model.operation.path withQuery ++ ", ")
      (commaLines (fetchOptions dialect model)) ")"] =
        some (fetchTokens dialect model withQuery) := by
  have opens : Whole "const response = await globalThis.fetch(" [.word "const", .word "response",
      .mark '=', .word "await", .word "globalThis", .mark '.', .word "fetch", .mark '('] :=
    fun _ => rfl
  have comma : Whole ", " [.mark ','] := fun _ => rfl
  have closes : Whole ")" [.mark ')'] := fun _ => rfl
  have url := whole_urlTemplate dialect.fullRequest model.operation.path withQuery
  exact Item.tokensOf?_block (.inl ((opens.append url).append comma))
    (tokensOf?_commaLines (reads_fetchOptions dialect model)) (.inl closes)

def castTokens : List Token :=
  if dialect.typeScript then [.word "as", .word "Types", .mark '.', .word model.responsesType] else []

theorem reads_cast {text : String} {tokens : List Token} (reads : Reads text tokens)
    (named : Reads model.responsesType [.word model.responsesType]) :
    Reads (text ++ if dialect.typeScript then " as " ++ declaredType model.responsesType else "")
      (tokens ++ castTokens dialect model) := by
  unfold castTokens
  split
  case isTrue =>
    have begins : Whole " as " [.word "as"] := fun _ => rfl
    exact reads.append (begins.append_reads (reads_declaredType named)) (apart_append rfl _)
  case isFalse => simpa using reads

def resultTokens : List Token :=
  if dialect.fullResponse then
    blockTokens [.word "return"]
      [.word "statusCode", .mark ':', .word "response", .mark '.', .word "status", .mark ',', .lineEnd,
        .word "headers", .mark ':', .word "Object", .mark '.', .word "fromEntries", .mark '(',
        .word "response", .mark '.', .word "headers", .mark '.', .word "entries", .mark '(', .mark ')',
        .mark ')', .mark ',', .lineEnd,
        .word "body", .mark ':', .word "responseBody", .lineEnd]
      (castTokens dialect model)
  else
    blockTokens [.word "if", .mark '(', .mark '!', .word "response", .mark '.', .word "ok", .mark ')']
      [.word "throw", .word "new", .word "Error", .mark '(', .chunk "", .openHole, .word "response",
        .mark '.', .word "status", .closeHole, .chunk " ", .openHole, .word "response", .mark '.',
        .word "statusText", .closeHole, .chunk "", .endTemplate, .mark ')', .lineEnd] [] ++
    (([.word "return", .word "responseBody"] : List Token) ++ castTokens dialect model ++ [.lineEnd])

theorem tokensOf?_resultItems (named : Reads model.responsesType [.word model.responsesType]) :
    Item.tokensOf? (resultItems dialect model) = some (resultTokens dialect model) := by
  unfold resultItems resultTokens
  simp only
  split
  case isTrue =>
    have ends := reads_cast dialect model reads_empty named
    rw [String.empty_append, List.nil_append] at ends
    exact Item.tokensOf?_block (@reads_identifier "return" rfl) rfl ends
  case isFalse =>
    have fails : Item.tokensOf? [.block "if (!response.ok)"
        [.line "throw new Error(`$\x7bresponse.status\x7d $\x7bresponse.statusText\x7d`)"] ""] =
        some (blockTokens
          [.word "if", .mark '(', .mark '!', .word "response", .mark '.', .word "ok", .mark ')']
          [.word "throw", .word "new", .word "Error", .mark '(', .chunk "", .openHole,
            .word "response", .mark '.', .word "status", .closeHole, .chunk " ", .openHole,
            .word "response", .mark '.', .word "statusText", .closeHole, .chunk "", .endTemplate,
            .mark ')', .lineEnd] []) := by
      decide +kernel
    have result : Reads "return responseBody" [.word "return", .word "responseBody"] := by
      have begins : Whole "return " [.word "return"] := fun _ => rfl
      exact begins.append_reads (@reads_identifier "responseBody" rfl)
    exact Item.tokensOf?_append fails
      (Item.tokensOf?_line (reads_cast dialect model result named))

def defaultTokens : List Token :=
  blockTokens
    (([.word "const", .word "headers"] : List Token) ++
      (if dialect.typeScript then
        ([.mark ':', .word "Record", .mark '<', .word "string", .mark ',', .word "string",
          .mark '>'] : List Token)
      else []) ++ [.mark '='])
    [.mark '.', .mark '.', .mark '.', .word "defaultHeaders", .lineEnd] []

def responseTokens : List Token :=
  [.word "const", .word "responseBody", .mark '=', .word "await", .word "readBody", .mark '(',
    .word "response", .mark ')', .lineEnd]

def operationTokens : List Token :=
  let query := model.operation.parametersIn .query
  defaultTokens dialect ++
    ((model.operation.parametersIn .header).flatMap (headerTokens dialect) ++
    (queryItemsTokens dialect query ++ (bodyTokens dialect model ++
    (fetchTokens dialect model (!query.isEmpty) ++ (responseTokens ++ resultTokens dialect model)))))

theorem tokensOf?_defaultHeaders : Item.tokensOf? [.block ("const headers" ++
    dialect.annotation "Record<string, string>" ++ " =") [.line "...defaultHeaders"] ""] =
      some (defaultTokens dialect) := by
  unfold Dialect.annotation defaultTokens
  cases dialect.typeScript with
  | true => rfl
  | false => rfl

theorem tokensOf?_operationBody (request : Reads model.requestType [.word model.requestType])
    (responses : Reads model.responsesType [.word model.responsesType]) :
    Item.tokensOf? (operationBody dialect model) = some (operationTokens dialect model) := by
  have reads : Item.tokensOf? [.line "const responseBody = await readBody(response)"] =
      some responseTokens := rfl
  have parameters := Item.tokensOf?_map (model.operation.parametersIn .header)
    (tokensOf?_headerItem dialect)
  have behind := Item.tokensOf?_append
    (tokensOf?_fetch dialect model (!(model.operation.parametersIn .query).isEmpty))
    (Item.tokensOf?_append reads (tokensOf?_resultItems dialect model responses))
  have found := Item.tokensOf?_append (tokensOf?_defaultHeaders dialect) (Item.tokensOf?_append parameters
    (Item.tokensOf?_append (tokensOf?_queryItems dialect (model.operation.parametersIn .query))
      (Item.tokensOf?_append (tokensOf?_bodyItems dialect model request) behind)))
  unfold operationBody operationTokens
  simpa using found

/-- What is read of an operation is read of its parts. -/
theorem read_operationTokens {β : Type} {read : List Token → List β} (linewise : Linewise read)
    (request : Reads model.requestType [.word model.requestType]) :
    read (operationTokens dialect model) = read (defaultTokens dialect) ++
      ((model.operation.parametersIn .header).flatMap
        (fun parameter => read (headerTokens dialect parameter)) ++
      (read (queryItemsTokens dialect (model.operation.parametersIn .query)) ++
      (read (bodyTokens dialect model) ++
      (read (fetchTokens dialect model (!(model.operation.parametersIn .query).isEmpty)) ++
      (read responseTokens ++ read (resultTokens dialect model)))))) := by
  have response : Item.tokensOf? [.line "const responseBody = await readBody(response)"] =
      some responseTokens := rfl
  have parameters := Item.tokensOf?_map (model.operation.parametersIn .header)
    (tokensOf?_headerItem dialect)
  unfold operationTokens
  rw [linewise.append (tokensOf?_defaultHeaders dialect), linewise.append parameters,
    linewise.flatMap _ (tokensOf?_headerItem dialect), linewise.append (tokensOf?_queryItems dialect _),
    linewise.append (tokensOf?_bodyItems dialect model request),
    linewise.append (tokensOf?_fetch dialect model _), linewise.append response]

end Response

end TypedClient.OpenApi.FetchClient
