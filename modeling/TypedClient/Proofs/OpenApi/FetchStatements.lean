import TypedClient.Proofs.OpenApi.FetchTrees
import TypedClient.Proofs.OpenApi.ClientOutline
import TypedClient.Proofs.OpenApi.FetchCode

/-! The statements of a fetch client's module that depend on its operations.

Each is code, declares what it should, and names no types but those of its operation and the
client's interface.
-/

set_option autoImplicit false

namespace TypedClient.OpenApi.FetchClient

open Script

section Names
variable (model : OperationModel)

def markTokens : List Token := if model.request.required then [] else [.mark '?']

def callable (model : OperationModel) : Callable := ⟨model.id, !model.request.required⟩

structure Named (model : OperationModel) : Prop where
  id : Text.isIdentifier model.id = true
  request : Reads model.requestType [.word model.requestType]
  responses : Reads model.responsesType [.word model.responsesType]

variable {model}

theorem reads_marked (model : OperationModel) {text : String} {tokens : List Token}
    (reads : Reads text tokens) :
    Reads (text ++ model.optionalMark) (tokens ++ markTokens model) := by
  unfold OperationModel.optionalMark markTokens
  split
  · simpa using reads
  · have mark : Whole "?" [.mark '?'] := fun _ => rfl
    exact .inl (reads.append_whole mark rfl)

theorem optionalAt_markTokens (rest : List Token) :
    optionalAt (markTokens model ++ .mark ':' :: rest) = !model.request.required := by
  unfold markTokens
  split
  case isTrue required => rw [required]; rfl
  case isFalse free =>
    rw [Bool.not_eq_true] at free
    rw [free]
    rfl

end Names

section Uses
variable {first rest body : List Item} {header text : String} {tokens : List Token}
  {types arguments : List (List String)} {declared : List String}

def Within (types : List (List String)) (declared : List String) : Prop :=
  ∀ used ∈ types, ∀ name ∈ used.head?, name ∈ declared

def Uses (items : List Item) (declared : List String) : Prop :=
  ∃ tokens, Item.tokensOf? items = some tokens ∧ Within (accesses "Types" tokens) declared

theorem Within.append {more : List (List String)} (within : Within types declared)
    (others : Within more declared) : Within (types ++ more) declared :=
  List.forall_mem_append.mpr ⟨within, others⟩

theorem Shows.uses (shows_ : Shows body types arguments) (within : Within types declared) :
    Uses body declared := by
  obtain ⟨tokens, found, rfl, _⟩ := shows_iff.mp shows_
  exact ⟨tokens, found, within⟩

theorem Uses.append (uses : Uses first declared) (others : Uses rest declared) :
    Uses (first ++ rest) declared := by
  obtain ⟨tokens, found, within⟩ := uses
  obtain ⟨more, behind, withinToo⟩ := others
  refine ⟨tokens ++ more, Item.tokensOf?_append found behind, ?_⟩
  rw [(linewise_accesses "Types").append found more]
  exact within.append withinToo

theorem uses_nil (declared : List String) : Uses [] declared := ⟨[], rfl, List.forall_mem_nil _⟩

theorem uses_flatMap {α : Type} {items : α → List Item} {all : List α}
    (each : ∀ one ∈ all, Uses (items one) declared) : Uses (all.flatMap items) declared := by
  induction all with
  | nil => exact uses_nil declared
  | cons one rest ih =>
    obtain ⟨own, others⟩ := List.forall_mem_cons.mp each
    exact own.append (ih others)

theorem Uses.block (begins : Reads header tokens) (within : Within (accesses "Types" tokens) declared)
    (uses : Uses body declared) : Uses [.blank, .block header body ""] declared := by
  obtain ⟨inside, found, others⟩ := uses
  have blank : Item.tokensOf? [.blank] = some [] := rfl
  have read := Item.tokensOf?_append blank (Item.tokensOf?_block begins found reads_empty)
  refine ⟨_, read, ?_⟩
  rw [List.nil_append, Item.accesses_block]
  exact within.append (others.append (List.forall_mem_nil _))

end Uses

section Statements
variable (dialect : Dialect) (model : OperationModel)

def nameTokens (name : String) : List Token := if name = "" then [] else [.word name]

theorem reads_name {name : String} (usable : Text.Usable name.toList) :
    Reads name (nameTokens name) := by
  unfold nameTokens
  split
  case isTrue empty =>
    rw [empty]
    exact reads_empty
  case isFalse nonempty => exact reads_word nonempty usable

section Import
variable (settings : Settings)

def importLine (stem : String) : String :=
  "import type * as " ++ "Types" ++ " from " ++ Factory.literal (typesSource settings stem)

theorem importStatements_items (name : ClientName) :
    (importStatements settings name).flatMap Statement.items =
      if settings.language = .typeScript then [.line (importLine settings name.stem), .blank]
      else [] := by
  unfold importStatements
  split <;> rfl

theorem reads_importLine (stem : String) :
    Reads (importLine settings stem) [.word "import", .word "type", .mark '*', .word "as",
      .word "Types", .word "from", .text (typesSource settings stem)] := by
  have types : Whole ("import type * as " ++ "Types" ++ " from ") [.word "import", .word "type",
    .mark '*', .word "as", .word "Types", .word "from"] := fun _ => rfl
  exact .inl (types.append (whole_literal (typesSource settings stem)))

end Import

def signatureTokens : List Token :=
  if dialect.typeScript then
    ([.mark '(', .word "url", .mark ':', .word "string", .mark ',', .word "request"] : List Token) ++
      markTokens model ++ ([.mark ':', .word "Types", .mark '.', .word model.requestType, .mark ')',
        .mark ':', .word "Promise", .mark '<', .word "Types", .mark '.', .word model.responsesType,
        .mark '>'] : List Token)
  else [.mark '(', .word "url", .mark ',', .word "request", .mark ')']

def functionTokens : List Token :=
  ([.word "async", .word "function", .word (privateName model.id)] : List Token) ++
    signatureTokens dialect model

variable {model}

theorem Named.reads_privateName (named : Named model) :
    Reads (privateName model.id) [.word (privateName model.id)] :=
  reads_underscore model.id (Text.usable_of_isIdentifierList named.id)

theorem Named.operationStatement_items (named : Named model) :
    ∃ header, (operationStatement dialect model).items =
      [.blank, .block header (operationBody dialect model) ""] ∧
        Reads header (functionTokens dialect model) := by
  have signature : Whole (if dialect.typeScript then
      "(url: string, request" ++ model.optionalMark ++ ": " ++ declaredType model.requestType ++
        "): Promise<" ++ declaredType model.responsesType ++ ">"
      else "(url, request)") (signatureTokens dialect model) := by
    unfold signatureTokens
    split
    case isTrue =>
      have opens : Whole "(url: string, " [.mark '(', .word "url", .mark ':', .word "string",
        .mark ','] := fun _ => rfl
      have argument : Reads "(url: string, request" [.mark '(', .word "url", .mark ':',
          .word "string", .mark ',', .word "request"] :=
        opens.append_reads (@reads_identifier "request" rfl)
      have colon : Whole ": " [.mark ':'] := fun _ => rfl
      have promise : Whole "): Promise<" [.mark ')', .mark ':', .word "Promise", .mark '<'] :=
        fun _ => rfl
      have closes : Whole ">" [.mark '>'] := fun _ => rfl
      have found := (((((reads_marked model argument).append_whole colon rfl).append_reads
        (reads_declaredType named.request)).append_whole promise rfl).append_reads
        (reads_declaredType named.responses)).append_whole closes rfl
      simpa using found
    case isFalse => exact fun _ => rfl
  have lead : Whole ("async " ++ "function ") [.word "async", .word "function"] := fun _ => rfl
  have space : Whole " " [] := fun _ => rfl
  have header := ((lead.append_reads named.reads_privateName).append_whole space rfl).append signature
  rw [List.append_nil] at header
  exact ⟨_, rfl, .inl header⟩

theorem Named.function?_operationStatement (named : Named model) :
    (operationStatement dialect model).items.filterMap Item.function? =
      [⟨privateName model.id, dialect.typeScript && !model.request.required⟩] := by
  obtain ⟨header, items, reads⟩ := named.operationStatement_items dialect
  have tokens := tokens?_of_reads reads
  have found : (Item.block header (operationBody dialect model) "").function? =
      some ⟨privateName model.id, dialect.typeScript && !model.request.required⟩ := by
    rw [Item.function?, tokens]
    unfold functionTokens signatureTokens
    cases dialect.typeScript with
    | true => simp [functionOf, argumentOptional, optionalAt_markTokens]
    | false => rfl
  rw [items, List.filterMap_cons_none rfl, List.filterMap_cons_some found, List.filterMap_nil]

theorem Named.wrapper?_operationStatement (named : Named model) :
    (operationStatement dialect model).items.filterMap Item.wrapper? = [] := by
  obtain ⟨header, items, reads⟩ := named.operationStatement_items dialect
  have found : (Item.block header (operationBody dialect model) "").wrapper? = none := by
    rw [Item.wrapper?, tokens?_of_reads reads]
    rfl
  rw [items, List.filterMap_cons_none rfl, List.filterMap_cons_none found, List.filterMap_nil]

/-- Names with an underscore are none without. -/
theorem privateName_ne (name : String) (other : ¬ ['_'] <+: name.toList) (id : String) :
    privateName id ≠ name := by
  rintro rfl
  exact other ⟨id.toList, (String.toList_append (s := "_")).symm⟩

theorem accesses_functionTokens : accesses "Types" (functionTokens dialect model) =
    if dialect.typeScript then [[model.requestType], [model.responsesType]] else [] := by
  have other := privateName_ne "Types" (by decide) model.id
  unfold functionTokens signatureTokens markTokens
  cases dialect.typeScript with
  | false => simp [accesses, other]
  | true => cases model.request.required <;> simp [accesses, chain, other]

theorem Named.uses_operationStatement {declared : List String} (named : Named model)
    (request : model.requestType ∈ declared) (responses : model.responsesType ∈ declared) :
    Uses (operationStatement dialect model).items declared := by
  have own : Within [[model.requestType]] declared := by simpa [Within] using request
  have result : Within [[model.responsesType]] declared := by simpa [Within] using responses
  have none : Within [] declared := List.forall_mem_nil _
  obtain ⟨header, items, reads⟩ := named.operationStatement_items dialect
  rw [items]
  apply Uses.block reads
  · rw [accesses_functionTokens]
    split
    · exact own.append result
    · exact none
  · apply (shows_operationBody dialect model named.request named.responses).uses
    unfold bodyTypes resultTypes
    split <;> split_ifs
    all_goals first
      | exact none
      | exact own
      | exact result
      | exact own.append result

def wrapperTokens (dialect : Dialect) (interface id : String) : List Token :=
  ([.word "export", .word "const", .word id] : List Token) ++
    (if dialect.typeScript then
      ([.mark ':', .word "Types", .mark '.'] : List Token) ++ nameTokens interface ++
        ([.mark '[', .text id, .mark ']'] : List Token)
    else []) ++
    ([.mark '=', .word "async", .mark '(', .word "request", .mark ')', .mark '=', .mark '>'] : List Token)

def wrapperBody (id : String) : List Item :=
  [.line ("return await " ++ privateName id ++ "(baseUrl, request)")]

theorem Named.tokensOf?_wrapperBody (named : Named model) :
    Item.tokensOf? (wrapperBody model.id) =
      some [.word "return", .word "await", .word (privateName model.id), .mark '(', .word "baseUrl",
        .mark ',', .word "request", .mark ')', .lineEnd] := by
  have awaits : Whole "return await " [.word "return", .word "await"] := fun _ => rfl
  have passes : Whole "(baseUrl, request)" [.mark '(', .word "baseUrl", .mark ',', .word "request",
    .mark ')'] := fun _ => rfl
  have line := (awaits.append_reads named.reads_privateName).append_whole passes rfl
  exact Item.tokensOf?_line (.inl line)

theorem Named.wrapperStatement_items (named : Named model) {interface : String}
    (usable : Text.Usable interface.toList) :
    ∃ header, (wrapperStatement dialect interface model).items =
      [.blank, .block header (wrapperBody model.id) ""] ∧
        Reads header (wrapperTokens dialect interface model.id) := by
  have lead : Whole "export const " [.word "export", .word "const"] := fun _ => rfl
  have equals : Whole " = " [.mark '='] := fun _ => rfl
  have arrow : Whole "async (request) =>" [.word "async", .mark '(', .word "request", .mark ')',
    .mark '=', .mark '>'] := fun _ => rfl
  have name := lead.append_reads (reads_identifier named.id)
  refine ⟨_, rfl, .inl ?_⟩
  unfold constantHeader wrapperType wrapperTokens
  cases dialect.typeScript with
  | false =>
    have header := (name.append_whole equals rfl).append arrow
    simpa using header
  | true =>
    have colon : Whole ": " [.mark ':'] := fun _ => rfl
    have opens : Whole "[" [.mark '['] := fun _ => rfl
    have closes : Whole "]" [.mark ']'] := fun _ => rfl
    have type := colon.append_reads (reads_declaredType (reads_name usable))
    have annotation := ((type.append_whole opens rfl).append (whole_literal model.id)).append closes
    have begins : apart (": " ++ declaredType interface ++ "[" ++ Factory.literal model.id ++ "]") =
        true := by
      rw [String.append_assoc, String.append_assoc, String.append_assoc]
      exact apart_append rfl _
    have header := ((name.append_whole annotation begins).append equals).append arrow
    simpa using header

theorem Named.wrapper?_wrapperStatement (named : Named model) {interface : String}
    (usable : Text.Usable interface.toList) :
    (wrapperStatement dialect interface model).items.filterMap Item.wrapper? =
      [⟨model.id, [privateName model.id]⟩] := by
  obtain ⟨header, items, reads⟩ := named.wrapperStatement_items dialect usable
  have found : (Item.block header (wrapperBody model.id) "").wrapper? =
      some ⟨model.id, [privateName model.id]⟩ := by
    rw [Item.wrapper?, tokens?_of_reads reads]
    simp [wrapperTokens, named.tokensOf?_wrapperBody, calls]
  rw [items, List.filterMap_cons_none rfl, List.filterMap_cons_some found, List.filterMap_nil]

theorem Named.function?_wrapperStatement (named : Named model) {interface : String}
    (usable : Text.Usable interface.toList) :
    (wrapperStatement dialect interface model).items.filterMap Item.function? = [] := by
  obtain ⟨header, items, reads⟩ := named.wrapperStatement_items dialect usable
  have found : (Item.block header (wrapperBody model.id) "").function? = none := by
    rw [Item.function?, tokens?_of_reads reads]
    unfold wrapperTokens
    cases dialect.typeScript <;> simp [functionOf]
  rw [items, List.filterMap_cons_none rfl, List.filterMap_cons_none found, List.filterMap_nil]

theorem Named.uses_wrapperStatement (named : Named model) {interface : String}
    (usable : Text.Usable interface.toList) {declared : List String}
    (distinct : model.id ≠ "Types") (member : interface ∈ declared) :
    Uses (wrapperStatement dialect interface model).items declared := by
  obtain ⟨header, items, reads⟩ := named.wrapperStatement_items dialect usable
  rw [items]
  apply Uses.block reads
  · unfold wrapperTokens nameTokens
    cases dialect.typeScript with
    | false => simp [Within, accesses, distinct]
    | true => by_cases empty : interface = "" <;>
        simp [Within, accesses, chain, distinct, empty, member]
  · refine ⟨_, named.tokensOf?_wrapperBody, ?_⟩
    have other := privateName_ne "Types" (by decide) model.id
    simp [Within, accesses, other]

def buildTokens (dialect : Dialect) (interface : String) : List Token :=
  ([.word "export", .word "default", .word "function", .word "build"] : List Token) ++
    if dialect.typeScript then
      ([.mark '(', .word "url", .mark ':', .word "string", .mark ',', .word "options", .mark '?',
        .mark ':', .mark '\x7b', .word "headers", .mark '?', .mark ':', .word "Record", .mark '<',
        .word "string", .mark ',', .word "string", .mark '>', .mark '\x7d', .mark ')', .mark ':',
        .word "Types", .mark '.'] : List Token) ++ nameTokens interface
    else [.mark '(', .word "url", .mark ',', .word "options", .mark ')']

def buildItems : List Item :=
  [.line "url = sanitizeUrl(url)",
   .block "if (options?.headers)" [.line "defaultHeaders = options.headers"] ""]

/-- The object that `build` returns stands behind other statements. -/
def buildBody (client : ClientModel) : List Item :=
  buildItems ++ [.block "return" (commaLines ((members client).map Member.text)) ""]

theorem buildStatement_items {interface : String} (usable : Text.Usable interface.toList)
    (client : ClientModel) :
    ∃ header, (buildStatement dialect interface client).items =
      [.blank, .block header (buildBody client) ""] ∧
      Reads header (buildTokens dialect interface) := by
  refine ⟨_, rfl, ?_⟩
  unfold functionHeader buildSignature buildTokens
  cases dialect.typeScript with
  | false =>
    simp only [Bool.false_eq_true, if_false]
    exact .inl fun _ => rfl
  | true =>
    have begins : Whole ("export default " ++ "function " ++ "build" ++ " ")
      [.word "export", .word "default", .word "function", .word "build"] := fun _ => rfl
    have arguments : Whole
      "(url: string, options?: \x7b headers?: Record<string, string> \x7d): "
      [.mark '(', .word "url", .mark ':', .word "string", .mark ',', .word "options", .mark '?',
        .mark ':', .mark '\x7b', .word "headers", .mark '?', .mark ':', .word "Record", .mark '<',
        .word "string", .mark ',', .word "string", .mark '>', .mark '\x7d', .mark ')', .mark ':'] :=
      fun _ => rfl
    have header := begins.append_reads
      (arguments.append_reads (reads_declaredType (reads_name usable)))
    simpa using header

structure Member.Reads (member : Member) (tokens : List Token) : Prop where
  text : Script.Reads member.text tokens
  name : memberName? tokens = some member.name
  before : memberName? (tokens ++ [.mark ',']) = some member.name
  types : accesses "Types" tokens = []

theorem Named.reads_member (named : Named model) (distinct : model.id ≠ "Types") :
    (Member.operation model.id).Reads [.word model.id, .mark ':', .word (privateName model.id),
      .mark '.', .word "bind", .mark '(', .word "null", .mark ',', .word "url", .mark ')'] := by
  have colon : Whole ": " [.mark ':'] := fun _ => rfl
  have binds : Whole ".bind(null, url)" [.mark '.', .word "bind", .mark '(', .word "null", .mark ',',
    .word "url", .mark ')'] := fun _ => rfl
  have text := (((reads_identifier named.id).append_whole colon rfl).append_reads
    named.reads_privateName).append_whole binds rfl
  have other := privateName_ne "Types" (by decide) model.id
  exact ⟨.inl text, rfl, rfl, by simp [accesses, distinct, other]⟩

theorem reads_members {client : ClientModel} (named : ∀ model ∈ client.operations, Named model)
    (distinct : ∀ model ∈ client.operations, model.id ≠ "Types") :
    ∀ member ∈ members client, ∃ tokens, member.Reads tokens := by
  unfold members
  refine List.forall_mem_append.mpr ⟨?_, ?_⟩
  · have base : (Member.own "setBaseUrl").Reads [.word "setBaseUrl"] :=
      ⟨reads_identifier (by decide), rfl, rfl, rfl⟩
    have headers : (Member.own "setDefaultHeaders").Reads [.word "setDefaultHeaders"] :=
      ⟨reads_identifier (by decide), rfl, rfl, rfl⟩
    exact List.forall_mem_cons.mpr ⟨⟨_, base⟩, List.forall_mem_singleton.mpr ⟨_, headers⟩⟩
  · intro operation member
    obtain ⟨model, listed, rfl⟩ := List.mem_map.mp member
    exact ⟨_, (named model listed).reads_member (distinct model listed)⟩

theorem member?_commaLines {all : List Member} (each : ∀ member ∈ all, ∃ tokens, member.Reads tokens) :
    (commaLines (all.map Member.text)).mapM Item.member? = some (all.map Member.name) := by
  induction all with
  | nil => rfl
  | cons member rest ih =>
    obtain ⟨⟨tokens, reads⟩, others⟩ := List.forall_mem_cons.mp each
    have alone : Item.member? (.line member.text) = some member.name :=
      (congrArg (·.bind memberName?) (tokens?_of_reads reads.text)).trans reads.name
    cases rest with
    | nil => simp [commaLines, alone]
    | cons second rest =>
      have comma : Whole "," [.mark ','] := fun _ => rfl
      have text := reads.text.append_whole comma rfl
      have first : Item.member? (.line (member.text ++ ",")) = some member.name :=
        (congrArg (·.bind memberName?) (tokens?_of_reads (.inl text))).trans reads.before
      change (Item.line (member.text ++ ",") :: commaLines ((second :: rest).map Member.text)).mapM
        Item.member? = _
      rw [List.mapM_cons, first, ih others]
      rfl

theorem buildStatement_item {interface : String} (usable : Text.Usable interface.toList)
    (client : ClientModel) :
    ∃ item, (buildStatement dialect interface client).items = [.blank, item] ∧
      (∃ optional, item.function? = some ⟨"build", optional⟩) ∧ item.wrapper? = none ∧
      item.body = buildBody client := by
  obtain ⟨header, items, reads⟩ := buildStatement_items dialect usable client
  refine ⟨_, items, ⟨argumentOptional "request" ((buildTokens dialect interface).drop 4), ?_⟩, ?_, rfl⟩
  · rw [Item.function?, tokens?_of_reads reads]
    rfl
  · rw [Item.wrapper?, tokens?_of_reads reads]
    rfl

section Members
variable {client : ClientModel} (named : ∀ model ∈ client.operations, Named model)
  (distinct : ∀ model ∈ client.operations, model.id ≠ "Types")
include named distinct

theorem returned?_buildBody :
    (buildBody client).findSome? Item.returned? = some ((members client).map Member.name) := by
  have before : buildItems.findSome? Item.returned? = none := by decide +kernel
  have returns : tokens? "return" = some [.word "return"] := by decide +kernel
  have object := member?_commaLines (reads_members named distinct)
  unfold buildBody
  rw [List.findSome?_append, before]
  simp [Item.returned?, returns, object]

theorem uses_buildStatement {interface : String} (usable : Text.Usable interface.toList)
    {declared : List String} (member : interface ∈ declared) :
    Uses (buildStatement dialect interface client).items declared := by
  obtain ⟨header, items, reads⟩ := buildStatement_items dialect usable client
  have texts : ∀ text ∈ (members client).map Member.text, ∃ tokens, Reads text tokens ∧
      accesses "Types" tokens = [] ∧
      accesses "request" tokens = accesses "request" ((tokens? text).getD []) := by
    intro text inside
    obtain ⟨one, listed, rfl⟩ := List.mem_map.mp inside
    obtain ⟨tokens, reads⟩ := reads_members named distinct one listed
    exact ⟨tokens, reads.text, reads.types, by rw [tokens?_of_reads reads.text]; rfl⟩
  have before : Shows buildItems [] [] := rfl
  have object := Shows.block (@reads_identifier "return" rfl) (shows_commaLines texts)
    reads_empty
  have none : Within ([] : List (List String)) declared := List.forall_mem_nil _
  rw [items]
  apply Uses.block reads
  · unfold buildTokens nameTokens
    cases dialect.typeScript with
    | false => exact none
    | true => by_cases empty : interface = "" <;> simp [Within, accesses, chain, empty, member]
  · apply (before.append object).uses
    simp [Within, accesses]

end Members

end Statements

end TypedClient.OpenApi.FetchClient
