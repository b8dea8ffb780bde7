import TypedClient.Proofs.OpenApi.ExportedTypes
import TypedClient.Proofs.OpenApi.FetchFiles

/-! The surface of a fetch client.

The declaration file promises an interface and the module keeps it: both files are written from one
list of operations, whose ids are distinct and leave the client's own names alone.
-/

set_option autoImplicit false

namespace TypedClient.OpenApi

open FetchClient
open Script

def surface (ids : List String) : List String := ["setBaseUrl", "setDefaultHeaders"] ++ ids

/-- The two files describe the same members. -/
structure SameSurface (settings : Settings) (ids : List String) (types implementation : List Item) :
    Prop where
  distinct : (surface ids).Nodup
  declared : (interfaceMethods? (clientInterface settings) types).map (·.map (·.name)) =
    some (surface ids)
  /-- Where the name of the interface is that of no other type, it has no members but these. -/
  sole : (exportedTypes types).count (clientInterface settings) = 1 →
    ∀ item ∈ types, item.exportedType? = some (clientInterface settings) →
      (item.body.mapM Item.method?).map (·.map (·.name)) = some (surface ids)
  returned : returnedMembers? "build" implementation = some (surface ids)
  /-- Each id has one exported constant, which calls the private function of the id. -/
  wrapped : ∀ id ∈ ids,
    (wrappers implementation).filter (·.name = id) = [⟨id, [privateName id]⟩]
  /-- There is one private function for each id, whose argument is marked like the method's. -/
  performed : ∀ id ∈ ids, ∃ optional,
    (functions implementation).filter (·.name = privateName id) = [⟨privateName id, optional⟩] ∧
    (settings.language = .typeScript → ∃ methods,
      interfaceMethods? (clientInterface settings) types = some methods ∧
        methods.filter (·.name = id) = [⟨id, optional⟩])
  /-- The module names no declared types but those that are exported. -/
  uses : Uses implementation (exportedTypes types)

section Model
variable {document : Document} {settings : Settings} {reserved : List String} {model : ClientModel}

/-- The operations of a model are those of its document, in order. -/
theorem operations_of_build (built : ClientModel.build document settings reserved = .ok model) :
    document.operations reserved = .ok (model.operations.map (·.operation)) := by
  obtain ⟨operations, _, resolved, -, -, models, -⟩ := ClientModel.of_build built
  rw [resolved]
  congr 1
  clear resolved built
  generalize model.operations = given at models
  induction models with
  | nil => rfl
  | cons same _ ih =>
    obtain ⟨registry, _, rfl⟩ := same
    rw [List.map_cons, ← ih]
    rfl

theorem fresh_ids_of_build (built : ClientModel.build document settings reserved = .ok model) :
    Fresh (model.operations.map (·.id)) reserved := by
  obtain ⟨_, _, ids⟩ := Document.operations_eq_ok_iff.mp (operations_of_build built)
  rw [List.map_map] at ids
  have fresh := fresh_handOut reserved (document.declared.map Declared.request)
  rw [← ids] at fresh
  exact fresh

theorem OperationModel.Regular.named {operation : OperationModel} (regular : operation.Regular) :
    Named operation := by
  have reads : ∀ suffix : String, suffix ≠ "" → Text.Usable suffix.toList →
      Reads (operation.operation.typePrefix ++ suffix)
        [.word (operation.operation.typePrefix ++ suffix)] := by
    intro suffix nonempty usable
    apply reads_word
    · intro empty
      have spelled := congrArg String.toList empty
      rw [String.toList_append] at spelled
      exact nonempty (String.toList_eq_nil_iff.mp (List.append_eq_nil_iff.mp spelled).2)
    · rw [String.toList_append]
      exact Text.usable_append.mpr ⟨regular.usable_prefix, usable⟩
  exact ⟨regular.identifier, reads "Request" (by decide) (Text.usable_of_all rfl),
    reads "Responses" (by decide) (Text.usable_of_all rfl)⟩

end Model

section Client
variable {settings : Settings} {name : ClientName} {client : ClientModel} {model : OperationModel}

theorem names_callables (client : ClientModel) :
    (ownCallables ++ client.operations.map callable).map (·.name) =
      surface (client.operations.map (·.id)) := by
  simp [surface, ownCallables, callable, Function.comp_def]

section Distinct
variable (fresh : Fresh (client.operations.map (·.id)) FetchClient.reservedIds)
include fresh

theorem nodup_surface : (surface (client.operations.map (·.id))).Nodup := by
  have reserved : ["setBaseUrl", "setDefaultHeaders"] ⊆ FetchClient.reservedIds := by decide
  refine List.nodup_append'.mpr ⟨by decide, fresh.1, ?_⟩
  intro name own member
  exact fresh.2 name member (reserved own)

theorem id_ne_types : ∀ model ∈ client.operations, model.id ≠ "Types" := by
  intro model member same
  have reserved : "Types" ∈ FetchClient.reservedIds := by decide
  exact fresh.2 model.id (List.mem_map_of_mem member) (same ▸ reserved)

theorem filter_callables (listed : model ∈ client.operations) :
    (ownCallables ++ client.operations.map callable).filter (·.name = model.id) =
      [callable model] := by
  have inside : callable model ∈ ownCallables ++ client.operations.map callable :=
    List.mem_append_right _ (List.mem_map_of_mem listed)
  exact filter_key_eq_singleton (names_callables client ▸ nodup_surface fresh) inside

variable (usable : Text.Usable name.interface.toList)
  (named : ∀ model ∈ client.operations, Named model)
include usable named

theorem filter_wrappers (listed : model ∈ client.operations) :
    (wrappers (implementationItems settings name client)).filter (·.name = model.id) =
      [⟨model.id, [privateName model.id]⟩] := by
  have found := @wrappers_implementationItems settings name client usable named
  have names : (wrappers (implementationItems settings name client)).map (·.name) =
      surface (client.operations.map (·.id)) := by
    rw [found]
    simp [surface, Function.comp_def]
  have inside : ⟨model.id, [privateName model.id]⟩ ∈
      wrappers (implementationItems settings name client) := by
    rw [found]
    exact List.mem_append_right _ (List.mem_map.mpr ⟨model, listed, rfl⟩)
  exact filter_key_eq_singleton (names ▸ nodup_surface fresh) inside

theorem filter_functions (listed : model ∈ client.operations) :
    (functions (implementationItems settings name client)).filter (·.name = privateName model.id) =
      [⟨privateName model.id,
        (Dialect.ofSettings settings).typeScript && !model.request.required⟩] := by
  obtain ⟨optional, found⟩ := @functions_implementationItems settings name client usable named
  -- The functions that are no operation's have no underscore.
  have others : ∀ one ∈ ["sanitizeUrl", "readBody", "build"], ¬ one = privateName model.id := by
    have plain : ∀ one ∈ ["sanitizeUrl", "readBody", "build"], ¬ ['_'] <+: one.toList := by decide
    exact fun one inside => (privateName_ne one (plain one inside) model.id).symm
  obtain ⟨sanitize, others⟩ := List.forall_mem_cons.mp others
  obtain ⟨read, others⟩ := List.forall_mem_cons.mp others
  have build := List.forall_mem_singleton.mp others
  let callables := client.operations.map fun model =>
    (⟨privateName model.id, (Dialect.ofSettings settings).typeScript && !model.request.required⟩ :
      Callable)
  have distinct : (callables.map (·.name)).Nodup := by
    have names := fresh.1.map (f := privateName) fun _ _ same => (String.append_right_inj "_").mp same
    simpa [callables, Function.comp_def] using names
  have own := filter_key_eq_singleton distinct (List.mem_map_of_mem listed)
  rw [found, List.filter_append, List.filter_append]
  simpa [sanitize, read, build] using own

end Distinct

/-- What a client with distinct ids and named types is made of fits together. -/
theorem sameSurface_of_model
    (fresh : Fresh (client.operations.map (·.id)) FetchClient.reservedIds)
    (named : ∀ model ∈ client.operations, Named model)
    (exported : exportedTypes (typeItems settings (ClientName.ofText settings.name) client) =
      fixedTypes settings ++ (client.declarations.map (·.name) ++
        client.operations.flatMap (·.declaredNames)) ++ [clientInterface settings]) :
    SameSurface settings (client.operations.map (·.id))
      (typeItems settings (ClientName.ofText settings.name) client)
      (implementationItems settings (ClientName.ofText settings.name) client) := by
  -- Each field compares what is read of one file with what is read of the other, or with the ids.
  have usable := usable_clientInterface settings
  have methods : interfaceMethods? (clientInterface settings)
      (typeItems settings (ClientName.ofText settings.name) client) =
        some (ownCallables ++ client.operations.map callable) :=
    interfaceMethods?_typeItems usable named
  constructor
  case distinct => exact nodup_surface fresh
  case declared => rw [methods, Option.map_some, names_callables]
  case sole =>
    intro once item member exported
    rw [interfaceMethods?_sole methods once item member exported, Option.map_some, names_callables]
  case returned =>
    rw [returnedMembers?_implementationItems usable named (id_ne_types fresh)]
    simp [members, surface, ownMethods, Member.name, Function.comp_def]
  case wrapped =>
    intro id member
    obtain ⟨model, listed, rfl⟩ := List.mem_map.mp member
    exact filter_wrappers fresh usable named listed
  case performed =>
    intro id member
    obtain ⟨model, listed, rfl⟩ := List.mem_map.mp member
    refine ⟨_, filter_functions fresh usable named listed, ?_⟩
    intro typeScript
    refine ⟨_, methods, ?_⟩
    rw [filter_callables fresh listed, callable, Dialect.ofSettings, typeScript]
    rfl
  case uses =>
    have declared : ∀ model ∈ client.operations, ∀ type ∈ model.declaredNames,
        type ∈ exportedTypes (typeItems settings (ClientName.ofText settings.name) client) := by
      intro model member type inside
      have found := List.mem_flatMap.mpr ⟨model, member, inside⟩
      rw [exported]
      exact List.mem_append_left _ (List.mem_append_right _ (List.mem_append_right _ found))
    have interface : clientInterface settings ∈
        exportedTypes (typeItems settings (ClientName.ofText settings.name) client) := by
      rw [exported]
      exact List.mem_append_right _ List.mem_cons_self
    apply uses_implementationItems usable named (id_ne_types fresh) interface
    intro model member
    have first : model.requestType ∈ model.declaredNames := List.mem_cons_self
    have last : model.responsesType ∈ model.declaredNames := by simp [OperationModel.declaredNames]
    exact ⟨declared model member _ first, declared model member _ last⟩

end Client

section File
variable {document : Document} {settings : Settings} {artifact : Artifact}

/-- Whenever a fetch client is generated, its two files describe the same members, named after the
operations of the document in order. -/
theorem sameSurface_of_generate (generated : generate (.openApi document) settings = .ok artifact)
    (frontend : settings.isFrontend = true) :
    ∃ operations model, document.operations FetchClient.reservedIds = .ok operations ∧
      ClientModel.build document settings FetchClient.reservedIds = .ok model ∧
      artifact = ⟨Item.render Style.standard (typeItems settings (ClientName.ofText settings.name) model),
        Item.render Style.standard
          (implementationItems settings (ClientName.ofText settings.name) model)⟩ ∧
      SameSurface settings (operations.map (·.id))
        (typeItems settings (ClientName.ofText settings.name) model)
        (implementationItems settings (ClientName.ofText settings.name) model) := by
  simp only [generate, frontend, if_true, FetchClient.generate_eq_bind] at generated
  obtain ⟨model, built, given⟩ := bind_eq_ok_iff.mp generated
  have builtToo : ClientModel.build document settings (reservedIds settings) = .ok model := by
    rw [reservedIds, if_pos frontend]
    exact built
  have exported := exportedTypes_typesFile builtToo
  rw [typesFile, if_pos frontend] at exported
  have named : ∀ operation ∈ model.operations, Named operation :=
    fun operation member => (regular_of_build built operation member).named
  refine ⟨_, model, operations_of_build built, built, (Except.ok.inj given).symm, ?_⟩
  rw [List.map_map]
  exact sameSurface_of_model (fresh_ids_of_build built) named exported

def petsDocument : Document where
  paths := [("/pets", ⟨[], [⟨.get, some "set-base-url", [], none, []⟩]⟩),
    ("/pets/\x7bid\x7d", ⟨[.item ⟨"id", .path, true, none⟩], [⟨.get, some "build", [], none, []⟩]⟩)]
  components := .empty
  definitions := []

def petsSettings : Settings :=
  { Settings.standard "pets" with isFrontend := true, language := .typeScript }

theorem pets_sameSurface :
    ∃ artifact model, generate (.openApi petsDocument) petsSettings = .ok artifact ∧
      petsSettings.isFrontend = true ∧
      ClientModel.build petsDocument petsSettings FetchClient.reservedIds = .ok model ∧
      SameSurface petsSettings ["getPets", "getPetsById"]
        (typeItems petsSettings (ClientName.ofText "pets") model)
        (implementationItems petsSettings (ClientName.ofText "pets") model) := by
  obtain ⟨artifact, generated⟩ : ∃ artifact,
      generate (.openApi petsDocument) petsSettings = .ok artifact := ⟨_, rfl⟩
  obtain ⟨operations, model, resolved, built, _, same⟩ := sameSurface_of_generate generated rfl
  have ids : (petsDocument.operations FetchClient.reservedIds).map (·.map (·.id)) =
      .ok ["getPets", "getPetsById"] := by decide +kernel
  rw [resolved] at ids
  simp only [Except.map, Except.ok.injEq] at ids
  rw [ids] at same
  exact ⟨artifact, model, generated, rfl, built, same⟩

end File

end TypedClient.OpenApi
