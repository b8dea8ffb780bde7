import TypedClient.Proofs.OpenApi.ClientSurface

/-! The names that a fetch client's module declares.

Each operation declares two: its id, and the name of a private function. The ids are different from
each other and from the client's own names. The private names are too, but nothing keeps them apart
from the ids: an id that begins with an underscore may be the private name of another.
-/

set_option autoImplicit false

namespace TypedClient

open Script

theorem Item.declaredName?_block {header suffix : String} {tokens : List Token}
    (reads : Reads header tokens) (body : List Item) :
    (Item.block header body suffix).declaredName? = Script.declaredName? tokens := by
  rw [Item.declaredName?, tokens?_of_reads reads]
  rfl

namespace OpenApi.FetchClient
variable {dialect : Dialect} {model : OperationModel} {interface : String}

section Statements

theorem moduleNames_block {header : String} {tokens : List Token} {name : String}
    (reads : Reads header tokens) (declared : Script.declaredName? tokens = some name)
    (body : List Item) : moduleNames [.blank, .block header body ""] = [name] := by
  unfold moduleNames
  rw [List.filterMap_cons_none rfl,
    List.filterMap_cons_some ((Item.declaredName?_block reads body).trans declared),
    List.filterMap_nil]

theorem Named.moduleNames_operationStatement (named : Named model) (dialect : Dialect) :
    moduleNames (operationStatement dialect model).items = [privateName model.id] := by
  obtain ⟨header, items, reads⟩ := named.operationStatement_items dialect
  rw [items]
  exact moduleNames_block reads rfl _

theorem Named.moduleNames_wrapperStatement (named : Named model) (dialect : Dialect)
    (usable : Text.Usable interface.toList) :
    moduleNames (wrapperStatement dialect interface model).items = [model.id] := by
  obtain ⟨header, items, reads⟩ := named.wrapperStatement_items dialect usable
  rw [items]
  exact moduleNames_block reads rfl _

theorem moduleNames_buildStatement (dialect : Dialect) (usable : Text.Usable interface.toList)
    (client : ClientModel) :
    moduleNames (buildStatement dialect interface client).items = ["build"] := by
  obtain ⟨header, items, reads⟩ := buildStatement_items dialect usable client
  rw [items]
  exact moduleNames_block reads rfl _

def importedNames (settings : Settings) : List String :=
  if settings.language = .typeScript then ["Types"] else []

theorem moduleNames_importStatements (settings : Settings) (name : ClientName) :
    moduleNames ((importStatements settings name).flatMap Statement.items) =
      importedNames settings := by
  have declared : Item.declaredName? (.line (importLine settings name.stem)) = some "Types" := by
    rw [Item.declaredName?, tokens?_of_reads (reads_importLine settings name.stem)]
    rfl
  rw [importStatements_items, importedNames]
  split
  case isTrue => exact List.filterMap_cons_some declared
  case isFalse => rfl

end Statements

section Module
variable {settings : Settings} {name : ClientName} {client : ClientModel}

def scopeNames (settings : Settings) (ids : List String) : List String :=
  importedNames settings ++ helperNames ++ ids.map privateName ++ ids ++ ["build"]

theorem moduleNames_implementationItems (usable : Text.Usable name.interface.toList)
    (named : ∀ model ∈ client.operations, Named model) :
    moduleNames (implementationItems settings name client) =
      scopeNames settings (client.operations.map (·.id)) := by
  have imported := moduleNames_importStatements settings name
  obtain ⟨_, _, helpers, _⟩ := helperItems (Dialect.ofSettings settings)
  have performed := filterMap_flatMap_eq_map fun model member =>
    (named model member).moduleNames_operationStatement (Dialect.ofSettings settings)
  have exported := filterMap_flatMap_eq_map fun model member =>
    (named model member).moduleNames_wrapperStatement (Dialect.ofSettings settings) usable
  have build := moduleNames_buildStatement (Dialect.ofSettings settings) usable client
  rw [implementationItems_eq, earlierItems]
  unfold moduleNames at *
  simp only [List.filterMap_append, imported, helpers, performed, exported, build, scopeNames,
    List.map_map, Function.comp_def]

/-- The client's own names, in one place. -/
theorem own_names {ids : List String} (fresh : Fresh ids reservedIds) {own : String}
    (member : own ∈ importedNames settings ++ helperNames ∨ own = "build") :
    own ∉ ids ∧ own ∉ ids.map privateName := by
  have closed : ∀ own ∈ ["Types", "build"] ++ helperNames,
      own ∈ reservedIds ∧ ¬ ['_'] <+: own.toList := by
    decide
  have listed : own ∈ ["Types", "build"] ++ helperNames := by
    obtain inside | rfl := member
    · unfold importedNames at inside
      split_ifs at inside
      · obtain first | other := List.mem_append.mp inside
        · exact List.mem_append_left _ (List.mem_singleton.mp first ▸ List.mem_cons_self)
        · exact List.mem_append_right _ other
      · exact List.mem_append_right _ inside
    · exact .tail _ (.head _)
  obtain ⟨reserved, plain⟩ := closed own listed
  constructor
  · exact fun inside => fresh.2 own inside reserved
  · intro inside
    obtain ⟨id, _, same⟩ := List.mem_map.mp inside
    exact privateName_ne own plain id same

/-- Names can only clash between an id and the private function of another. -/
theorem nodup_scopeNames_iff {ids : List String} (fresh : Fresh ids reservedIds) :
    (scopeNames settings ids).Nodup ↔ ∀ id ∈ ids, privateName id ∉ ids := by
  have privates : (ids.map privateName).Nodup :=
    fresh.1.map fun _ _ same => (String.append_right_inj "_").mp same
  have before : (importedNames settings ++ helperNames).Nodup := by
    unfold importedNames
    split_ifs <;> decide
  have ended : "build" ∉ importedNames settings ++ helperNames := by
    unfold importedNames
    split_ifs <;> decide
  unfold scopeNames
  -- All other pairs of names are apart by the reserved ids.
  constructor
  · intro distinct id member clash
    have apart := (List.nodup_append.mp (List.nodup_append.mp distinct).1).2.2
    have performed : privateName id ∈ importedNames settings ++ helperNames ++ ids.map privateName :=
      List.mem_append_right _ (List.mem_map_of_mem member)
    exact apart _ performed _ clash rfl
  · intro apart
    refine List.nodup_append'.mpr ⟨List.nodup_append'.mpr ⟨List.nodup_append'.mpr
      ⟨before, privates, ?_⟩, fresh.1, ?_⟩, List.nodup_singleton _, ?_⟩
    · exact fun own inside => (own_names fresh (.inl inside)).2
    · intro name inside
      obtain own | performed := List.mem_append.mp inside
      · exact (own_names fresh (.inl own)).1
      · obtain ⟨id, member, rfl⟩ := List.mem_map.mp performed
        exact apart id member
    · intro name inside last
      obtain rfl := List.mem_singleton.mp last
      obtain ⟨id, performed⟩ := @own_names settings ids fresh "build" (.inr rfl)
      obtain first | exported := List.mem_append.mp inside
      · obtain own | listed := List.mem_append.mp first
        · exact ended own
        · exact performed listed
      · exact id exported

end Module

end OpenApi.FetchClient

namespace OpenApi

open FetchClient

section File
variable {document : Document} {settings : Settings} {artifact : Artifact} {reserved : List String}
  {client : ClientModel} {id : String}

/-- An id that begins with no method is asked for by an operation of the document. -/
theorem exists_asked_of_build (built : ClientModel.build document settings reserved = .ok client)
    (member : id ∈ client.operations.map (·.id))
    (other : ∀ method : Method, ¬ method.text.toList <+: id.toList) :
    ∃ declared ∈ document.declared, ∃ text,
      declared.operation.operationId = some text ∧ Text.toIdentifier text = id := by
  obtain ⟨_, _, ids⟩ := Document.operations_eq_ok_iff.mp (operations_of_build built)
  rw [List.map_map] at ids
  have handed : id ∈ handOut reserved (document.declared.map Declared.request) := ids ▸ member
  obtain ⟨request, listed, text, asked, named⟩ := exists_asked_of_mem_handOut handed other
  obtain ⟨declared, inside, rfl⟩ := List.mem_map.mp listed
  exact ⟨declared, inside, text, asked, named⟩

theorem not_begins_privateName (id : String) (method : Method) :
    ¬ method.text.toList <+: (privateName id).toList := by
  rw [privateName, String.toList_append]
  rintro ⟨rest, same⟩
  cases method <;> cases same

/-- What is generated for a browser is the code of a model. -/
theorem exists_model_of_generate
    (generated : generate (.openApi document) settings = .ok artifact)
    (frontend : settings.isFrontend = true) :
    ∃ model, ClientModel.build document settings FetchClient.reservedIds = .ok model ∧
      artifact.implementation = Item.render Style.standard
        (implementationItems settings (ClientName.ofText settings.name) model) := by
  simp only [generate, frontend, if_true, FetchClient.generate_eq_bind] at generated
  obtain ⟨model, built, given⟩ := bind_eq_ok_iff.mp generated
  cases given
  exact ⟨model, built, rfl⟩

theorem names_of_build
    (built : ClientModel.build document settings FetchClient.reservedIds = .ok client) :
    let ids := client.operations.map (·.id)
    let items := implementationItems settings (ClientName.ofText settings.name) client
    moduleNames items = scopeNames settings ids ∧
      ((moduleNames items).Nodup ↔ ∀ id ∈ ids, privateName id ∉ ids) := by
  have named : ∀ operation ∈ client.operations, Named operation :=
    fun operation member => (regular_of_build built operation member).named
  have declared : moduleNames
      (implementationItems settings (ClientName.ofText settings.name) client) = _ :=
    moduleNames_implementationItems (usable_clientInterface settings) named
  refine ⟨declared, ?_⟩
  rw [declared]
  exact nodup_scopeNames_iff (fresh_ids_of_build built)

structure Scope (document : Document) (settings : Settings) (ids : List String)
    (implementation : List Item) : Prop where
  declared : moduleNames implementation = scopeNames settings ids
  distinct_iff : (moduleNames implementation).Nodup ↔ ∀ id ∈ ids, privateName id ∉ ids
  /-- An id that is a private name at once is asked for. -/
  asked : ∀ id ∈ ids, privateName id ∈ ids → ∃ declared ∈ document.declared, ∃ text,
    declared.operation.operationId = some text ∧ Text.toIdentifier text = privateName id

/-- The module of a fetch client declares the client's names and two for each operation, and no two
are equal unless an id is that of another operation with an underscore in front. -/
theorem scope_of_generate (generated : generate (.openApi document) settings = .ok artifact)
    (frontend : settings.isFrontend = true) :
    ∃ operations model, document.operations FetchClient.reservedIds = .ok operations ∧
      ClientModel.build document settings FetchClient.reservedIds = .ok model ∧
      artifact.implementation = Item.render Style.standard
        (implementationItems settings (ClientName.ofText settings.name) model) ∧
      Scope document settings (operations.map (·.id))
        (implementationItems settings (ClientName.ofText settings.name) model) := by
  obtain ⟨model, built, implementation⟩ := exists_model_of_generate generated frontend
  obtain ⟨declared, distinct⟩ := names_of_build built
  refine ⟨_, model, operations_of_build built, built, implementation, ?_⟩
  rw [List.map_map]
  exact ⟨declared, distinct, fun id _ clash =>
    exists_asked_of_build built clash (not_begins_privateName id)⟩

theorem pets_scope :
    ∃ artifact model, generate (.openApi petsDocument) petsSettings = .ok artifact ∧
      petsSettings.isFrontend = true ∧
      ClientModel.build petsDocument petsSettings FetchClient.reservedIds = .ok model ∧
      (moduleNames (implementationItems petsSettings (ClientName.ofText "pets") model)).Nodup := by
  obtain ⟨artifact, generated⟩ : ∃ artifact,
      generate (.openApi petsDocument) petsSettings = .ok artifact := ⟨_, rfl⟩
  obtain ⟨operations, model, resolved, built, -, scope⟩ := scope_of_generate generated rfl
  have ids : (petsDocument.operations FetchClient.reservedIds).map (·.map (·.id)) =
      .ok ["getPets", "getPetsById"] := by decide +kernel
  rw [resolved] at ids
  simp only [Except.map, Except.ok.injEq] at ids
  rw [ids] at scope
  exact ⟨artifact, model, generated, rfl, built, scope.distinct_iff.mpr (by decide)⟩

def scoredDocument : Document where
  paths := [("/pets", ⟨[], [⟨.get, some "getPets", [], none, []⟩]⟩),
    ("/strays", ⟨[], [⟨.get, some "_getPets", [], none, []⟩]⟩)]
  components := .empty
  definitions := []

/-- The private function of one operation has the name of the constant of the other. -/
theorem scored_names_clash :
    (generate (.openApi scoredDocument) petsSettings).isOk = true ∧
      ∃ model, ClientModel.build scoredDocument petsSettings FetchClient.reservedIds = .ok model ∧
        ¬ (moduleNames
          (implementationItems petsSettings (ClientName.ofText "pets") model)).Nodup := by
  have built : ClientModel.build scoredDocument petsSettings FetchClient.reservedIds = .ok _ := rfl
  obtain ⟨_, distinct⟩ := names_of_build built
  exact ⟨rfl, _, built, fun nodup => absurd (distinct.mp nodup "getPets") (by decide +kernel)⟩

end File

end OpenApi

end TypedClient
