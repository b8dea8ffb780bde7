import TypedClient.Proofs.OpenApi.ModuleNames
import TypedClient.Proofs.OpenApi.OperationNames

/-! The globals that the code of a fetch client refers to.

Each function of an operation refers to a few globals. Nothing keeps the ids of the operations from
having these names, but an operation that has one has asked for it.
-/

set_option autoImplicit false

namespace TypedClient.OpenApi.FetchClient

open Script

section Statements
variable {dialect : Dialect} {model : OperationModel} {interface : String}

theorem moduleReferences?_importStatements (settings : Settings) (name : ClientName) :
    moduleReferences? ((importStatements settings name).flatMap Statement.items) = some [] := by
  have found : Item.freeNames? (.line (importLine settings name.stem)) = some [] := by
    rw [Item.freeNames?, tokens?_of_reads (reads_importLine settings name.stem)]
    rfl
  rw [importStatements_items]
  split
  case isTrue =>
    rw [moduleReferences?, List.mapM_cons, found]
    rfl
  case isFalse => rfl

theorem argumentNames_functionTokens (dialect : Dialect) (model : OperationModel) :
    argumentNames (functionTokens dialect model) = ["url", "request"] := by
  unfold functionTokens signatureTokens markTokens
  split_ifs <;> simp [argumentNames]

theorem Named.moduleReferences?_operationStatement (named : Named model) (dialect : Dialect) :
    moduleReferences? (operationStatement dialect model).items =
      some (freeNames ["url", "request"] (operationTokens dialect model)) := by
  obtain ⟨header, items, reads⟩ := named.operationStatement_items dialect
  have body := tokensOf?_operationBody dialect model named.request named.responses
  rw [items, moduleReferences?_block reads body, argumentNames_functionTokens]

theorem isVariable_privateName {id : String} (legal : Text.isIdentifier id = true) :
    isVariable (privateName id) = true := by
  have plain : ∀ word ∈ fixedWords, ¬ ['_'] <+: word.toList := by decide
  have other : privateName id ∉ fixedWords := by
    intro member
    exact privateName_ne _ (plain _ member) id rfl
  have usable := Text.usable_of_isIdentifierList legal
  have begins : Text.isIdentifier (privateName id) = true := by
    rw [Text.isIdentifier, privateName, String.toList_append]
    exact Text.isIdentifierList_append rfl usable
  simp [isVariable, begins, other]

theorem Named.moduleReferences?_wrapperStatement (named : Named model) (dialect : Dialect)
    (usable : Text.Usable interface.toList) :
    moduleReferences? (wrapperStatement dialect interface model).items =
      some [privateName model.id, "baseUrl"] := by
  obtain ⟨header, items, reads⟩ := named.wrapperStatement_items dialect usable
  have arguments : argumentNames (wrapperTokens dialect interface model.id) = ["request"] := by
    unfold wrapperTokens nameTokens
    split_ifs <;> simp [argumentNames]
  have own := isVariable_privateName named.id
  have other := privateName_ne "request" (by decide) model.id
  have words : isVariable "return" = false ∧ isVariable "await" = false ∧
      isVariable "baseUrl" = true := by decide
  rw [items, moduleReferences?_block reads named.tokensOf?_wrapperBody, arguments]
  simp [freeNames, references, bound, own, other, words]

def Member.tokens : Member → List Token
  | .own name => [.word name]
  | .operation id => [.word id, .mark ':', .word (privateName id), .mark '.', .word "bind", .mark '(',
    .word "null", .mark ',', .word "url", .mark ')']

section Build
variable {client : ClientModel} (named : ∀ model ∈ client.operations, Named model)
  (distinct : ∀ model ∈ client.operations, model.id ≠ "Types")
include named distinct

theorem reads_memberTokens :
    List.Forall₂ Reads ((members client).map Member.text) ((members client).map Member.tokens) := by
  rw [List.forall₂_map_left_iff, List.forall₂_map_right_iff, List.forall₂_same]
  unfold members
  refine List.forall_mem_append.mpr ⟨?_, ?_⟩
  · intro member inside
    obtain ⟨method, own, rfl⟩ := List.mem_map.mp inside
    have legal : ∀ method ∈ ownMethods, Text.isIdentifier method.name = true := by decide
    exact reads_identifier (legal method own)
  · intro member inside
    obtain ⟨model, listed, rfl⟩ := List.mem_map.mp inside
    exact ((named model listed).reads_member (distinct model listed)).text

omit named distinct in
theorem mem_of_references_member {member : Member} {name : String}
    (returned : member ∈ members client) (refers : name ∈ references member.tokens)
    (variable_ : isVariable name = true) (other : name ∉ ["url", "options"]) :
    name ∈ helperNames ++ (client.operations.map (·.id)).map privateName := by
  obtain own | operation := List.mem_append.mp returned
  · obtain ⟨method, listed, rfl⟩ := List.mem_map.mp own
    obtain rfl : name = method.name := by simpa [Member.tokens, references] using refers
    have closed : ∀ method ∈ ownMethods, method.name ∈ helperNames := by decide
    exact List.mem_append_left _ (closed method listed)
  · obtain ⟨model, listed, rfl⟩ := List.mem_map.mp operation
    have words : name ∈ [privateName model.id, "null", "url"] := by
      simpa [Member.tokens, references] using refers
    obtain rfl | fixed := List.mem_cons.mp words
    · exact List.mem_append_right _ (List.mem_map_of_mem (List.mem_map_of_mem listed))
    · have closed : ∀ word ∈ ["null", "url"], isVariable word = true →
          word ∈ ["url", "options"] := by decide
      exact absurd (closed name fixed variable_) other

/-- What `build` refers to is declared in the module. -/
theorem moduleReferences?_buildStatement (dialect : Dialect) (usable : Text.Usable interface.toList) :
    ∃ names, moduleReferences? (buildStatement dialect interface client).items = some names ∧
      names ⊆ helperNames ++ (client.operations.map (·.id)).map privateName := by
  obtain ⟨header, items, reads⟩ := buildStatement_items dialect usable client
  have arguments : argumentNames (buildTokens dialect interface) = ["url", "options"] := by
    unfold buildTokens nameTokens
    split_ifs <;> simp [argumentNames]
  -- What does not depend on the client is read once and for all.
  have begins : Item.tokensOf? buildItems = some [.word "url", .mark '=', .word "sanitizeUrl",
      .mark '(', .word "url", .mark ')', .lineEnd, .word "if", .mark '(', .word "options", .mark '?',
      .mark '.', .word "headers", .mark ')', .mark '\x7b', .lineEnd, .word "defaultHeaders", .mark '=',
      .word "options", .mark '.', .word "headers", .lineEnd, .mark '\x7d', .lineEnd] := by
    decide +kernel
  have returns := Item.tokensOf?_block (@reads_identifier "return" rfl)
    (tokensOf?_commaLines (reads_memberTokens named distinct)) reads_empty
  have body := Item.tokensOf?_append begins returns
  rw [items]
  refine ⟨_, moduleReferences?_block reads body, ?_⟩
  intro name free
  obtain ⟨refers, variable_, other, _⟩ := mem_freeNames_iff.mp free
  rw [arguments] at other
  rw [linewise_references.append begins, references_block, references_commaTokens] at refers
  simp only [List.mem_append] at refers
  obtain inItems | inReturn | inMembers | inEnd := refers
  · have closed : ∀ word ∈ ["url", "sanitizeUrl", "url", "if", "options", "defaultHeaders", "options"],
        isVariable word = true → word ∈ ["url", "options"] ∨ word ∈ helperNames := by
      decide
    exact List.mem_append_left _ ((closed name inItems variable_).resolve_left other)
  · have closed : ∀ word ∈ ["return"], ¬ isVariable word = true := by decide
    exact absurd variable_ (closed name inReturn)
  · obtain ⟨tokens, listed, inside⟩ := List.mem_flatMap.mp inMembers
    obtain ⟨member, returned, rfl⟩ := List.mem_map.mp listed
    exact mem_of_references_member returned inside variable_ other
  · cases inEnd

end Build

end Statements

section Module
variable {settings : Settings} {name : ClientName} {client : ClientModel}

/-- What a module refers to besides the client's own names. -/
theorem moduleReferences?_implementationItems (usable : Text.Usable name.interface.toList)
    (named : ∀ model ∈ client.operations, Named model)
    (distinct : ∀ model ∈ client.operations, model.id ≠ "Types") :
    ∃ names, moduleReferences? (implementationItems settings name client) = some names ∧
      ∀ one ∉ helperNames, one ∈ names ↔ one ∈ (client.operations.map (·.id)).map privateName ∨
        ∃ model ∈ client.operations, one ∈ operationGlobals (Dialect.ofSettings settings) model := by
  have imported := moduleReferences?_importStatements settings name
  obtain ⟨_, _, _, helpers, _⟩ := helperItems (Dialect.ofSettings settings)
  have performed := moduleReferences?_flatMap fun model member =>
    (named model member).moduleReferences?_operationStatement (Dialect.ofSettings settings)
  have exported := moduleReferences?_flatMap fun model member =>
    (named model member).moduleReferences?_wrapperStatement (Dialect.ofSettings settings) usable
  obtain ⟨built, build, within⟩ :=
    moduleReferences?_buildStatement named distinct (Dialect.ofSettings settings) usable
  have found := moduleReferences?_append (moduleReferences?_append (moduleReferences?_append
    (moduleReferences?_append imported helpers) performed) exported) build
  rw [implementationItems_eq, earlierItems]
  refine ⟨_, found, fun one other => ?_⟩
  -- Every group of statements refers to names of the module, and only operations to globals.
  simp only [List.mem_append, List.mem_flatMap, List.nil_append]
  constructor
  · rintro (((helper | ⟨model, member, free⟩) | ⟨model, member, wraps⟩) | builds)
    · have own : ["baseUrl", "sanitizeUrl", "defaultHeaders"] ⊆ helperNames := by decide
      exact absurd (own helper) other
    · rw [mem_freeNames_operationTokens_iff (named model member).request] at free
      have own : ["defaultHeaders", "readBody"] ⊆ helperNames := by decide
      obtain helper | global := List.mem_append.mp free
      · exact absurd (own helper) other
      · exact .inr ⟨model, member, global⟩
    · obtain rfl | helper := List.mem_cons.mp wraps
      · exact .inl (List.mem_map_of_mem (List.mem_map_of_mem member))
      · have own : ["baseUrl"] ⊆ helperNames := by decide
        exact absurd (own helper) other
    · obtain helper | calls := List.mem_append.mp (within builds)
      · exact absurd helper other
      · exact .inl calls
  · rintro (calls | ⟨model, member, global⟩)
    · obtain ⟨id, listed, rfl⟩ := List.mem_map.mp calls
      obtain ⟨model, member, rfl⟩ := List.mem_map.mp listed
      exact .inl (.inr ⟨model, member, List.mem_cons_self⟩)
    · refine .inl (.inl (.inr ⟨model, member, ?_⟩))
      rw [mem_freeNames_operationTokens_iff (named model member).request]
      exact List.mem_append_right _ global

end Module

end TypedClient.OpenApi.FetchClient

namespace TypedClient.OpenApi

open FetchClient

section File
variable {document : Document} {settings : Settings} {artifact : Artifact}

/-- What the code of a client refers to, and which of it has the name of an operation. -/
structure Captures (document : Document) (settings : Settings) (client : ClientModel)
    (names : List String) : Prop where
  refers : ∀ name ∉ helperNames, name ∈ names ↔
    name ∈ (client.operations.map (·.id)).map privateName ∨
      ∃ model ∈ client.operations, name ∈ operationGlobals (Dialect.ofSettings settings) model
  guarded : ∀ name ∈ "globalThis" :: helperNames, name ∉ client.operations.map (·.id)
  /-- An operation with the name of a global or of a private function asks for that name. -/
  asked : ∀ id ∈ client.operations.map (·.id), id ∈ names →
    ∃ declared ∈ document.declared, ∃ text,
      declared.operation.operationId = some text ∧ Text.toIdentifier text = id

theorem not_begins_globalNames (method : Method) :
    ∀ name ∈ globalNames, ¬ method.text.toList <+: name.toList := by
  cases method <;> decide

theorem exists_references_of_build {client : ClientModel}
    (built : ClientModel.build document settings FetchClient.reservedIds = .ok client) :
    ∃ names, moduleReferences?
        (implementationItems settings (ClientName.ofText settings.name) client) = some names ∧
      ∀ name ∉ helperNames, name ∈ names ↔
        name ∈ (client.operations.map (·.id)).map privateName ∨
          ∃ model ∈ client.operations, name ∈ operationGlobals (Dialect.ofSettings settings) model := by
  have named : ∀ operation ∈ client.operations, Named operation :=
    fun operation member => (regular_of_build built operation member).named
  exact moduleReferences?_implementationItems (usable_clientInterface settings) named
    (id_ne_types (fresh_ids_of_build built))

/-- The code of a fetch client refers to what it declares itself and to a few globals, each for a
reason. An operation has the name of a global only if its document asks for that. -/
theorem captures_of_generate (generated : generate (.openApi document) settings = .ok artifact)
    (frontend : settings.isFrontend = true) :
    ∃ model names, ClientModel.build document settings FetchClient.reservedIds = .ok model ∧
      artifact.implementation = Item.render Style.standard
        (implementationItems settings (ClientName.ofText settings.name) model) ∧
      moduleReferences? (implementationItems settings (ClientName.ofText settings.name) model) =
        some names ∧
      Captures document settings model names := by
  obtain ⟨model, built, implementation⟩ := exists_model_of_generate generated frontend
  obtain ⟨names, found, refers⟩ := exists_references_of_build built
  have guarded : ∀ name ∈ "globalThis" :: helperNames, name ∉ model.operations.map (·.id) := by
    have reserved : "globalThis" :: helperNames ⊆ FetchClient.reservedIds := by decide
    exact fun name own member => (fresh_ids_of_build built).2 name member (reserved own)
  refine ⟨model, names, built, implementation, found, refers, guarded, fun id member inside => ?_⟩
  have other : id ∉ helperNames := fun own => guarded id (.tail _ own) member
  obtain calls | ⟨operation, _, global⟩ := (refers id other).mp inside
  · obtain ⟨_, _, rfl⟩ := List.mem_map.mp calls
    exact exists_asked_of_build built member (not_begins_privateName _)
  · have listed := operationGlobals_subset _ operation global
    exact exists_asked_of_build built member fun method => not_begins_globalNames method id listed

theorem pets_captures :
    ∃ artifact model names, generate (.openApi petsDocument) petsSettings = .ok artifact ∧
      petsSettings.isFrontend = true ∧
      moduleReferences? (implementationItems petsSettings (ClientName.ofText "pets") model) =
        some names ∧
      Captures petsDocument petsSettings model names := by
  obtain ⟨artifact, generated⟩ : ∃ artifact,
      generate (.openApi petsDocument) petsSettings = .ok artifact := ⟨_, rfl⟩
  obtain ⟨model, names, -, -, found, captures⟩ := captures_of_generate generated rfl
  exact ⟨artifact, model, names, generated, rfl, found, captures⟩

def stringDocument : Document where
  paths := [("/pets/\x7bname\x7d",
    ⟨[], [⟨.get, some "String", [.item ⟨"name", .path, true, none⟩], none, []⟩]⟩)]
  components := .empty
  definitions := []

/-- An operation takes the place of the global that its own code calls. -/
theorem string_captured :
    (generate (.openApi stringDocument) petsSettings).isOk = true ∧
      ∃ model names,
        ClientModel.build stringDocument petsSettings FetchClient.reservedIds = .ok model ∧
        moduleReferences? (implementationItems petsSettings (ClientName.ofText "pets") model) =
          some names ∧
        "String" ∈ model.operations.map (·.id) ∧ "String" ∈ names := by
  have built : ClientModel.build stringDocument petsSettings FetchClient.reservedIds = .ok _ := rfl
  obtain ⟨names, found, refers⟩ := exists_references_of_build built
  refine ⟨rfl, _, names, built, found, by decide, (refers "String" (by decide)).mpr (.inr ?_)⟩
  exact ⟨_, List.mem_cons_self, by decide +kernel⟩

end File

end TypedClient.OpenApi
