import TypedClient.Bundle
import TypedClient.Proofs.OpenApi.Buildable
import TypedClient.Proofs.OpenApi.ExportedItems
import TypedClient.Proofs.OpenApi.LegalIds

/-! The names of the types that a declaration file exports.

They come from four sources: the components that the client reaches, the operations, the
client's name, and the types that are written anyway. Each source normalizes its names,
and nothing compares the results, so two names may be equal. The names of an operation end
in ways that keep them apart from each other, from those of operations with another
prefix and from the types that are written anyway; the other pairs of sources are left to
the document.
-/

set_option autoImplicit false

namespace TypedClient.OpenApi

open Text
open TypeScript (Declaration aliasLine)

section Operations
variable {model other : OperationModel}

def typeSuffixes : List String :=
  "Request" :: (StatusClass.all.map fun status => "Response" ++ status.label) ++ ["Responses"]

/-- None of the suffixes ends in another, so a name is cut in one way. -/
theorem append_inj_of_suffixes {first second left right : String} (mine : left ∈ typeSuffixes)
    (yours : right ∈ typeSuffixes) (same : first ++ left = second ++ right) :
    first = second ∧ left = right := by
  have apart : ∀ left ∈ typeSuffixes, ∀ right ∈ typeSuffixes,
      left.toList <:+ right.toList → left = right := by decide
  have texts := congrArg String.toList same
  rw [String.toList_append, String.toList_append] at texts
  have ends : left = right := by
    have suffix : left.toList <:+ second.toList ++ right.toList := ⟨_, texts⟩
    rcases List.suffix_or_suffix_of_suffix suffix (List.suffix_append _ _) with inside | inside
    · exact apart _ mine _ yours inside
    · exact (apart _ yours _ mine inside).symm
  subst ends
  exact ⟨(String.append_left_inj left).mp same, rfl⟩

def OperationModel.suffixes (model : OperationModel) : List String :=
  "Request" :: (model.alternatives.map fun alternative => "Response" ++ alternative.status.label) ++
    ["Responses"]

theorem OperationModel.declaredNames_eq (model : OperationModel) :
    model.declaredNames =
      model.suffixes.map fun suffix => model.operation.typePrefix ++ suffix := by
  simp [declaredNames, suffixes, requestType, responseType, responsesType, Function.comp_def,
    String.append_assoc]

structure OperationModel.Regular (model : OperationModel) : Prop where
  identifier : isIdentifier model.operation.id = true
  ordered : (model.alternatives.map (·.status)).Sublist StatusClass.all

namespace OperationModel.Regular

theorem suffixes_sublist (regular : model.Regular) : model.suffixes.Sublist typeSuffixes := by
  unfold suffixes typeSuffixes
  have responses := regular.ordered.map fun status => "Response" ++ status.label
  rw [List.map_map] at responses
  exact .append (.cons_cons _ responses) (.refl _)

theorem nodup_declaredNames (regular : model.Regular) : model.declaredNames.Nodup := by
  have distinct : typeSuffixes.Nodup := by decide
  rw [declaredNames_eq]
  exact (regular.suffixes_sublist.nodup distinct).map
    fun _ _ same => (String.append_right_inj _).mp same

theorem mem_declaredNames (regular : model.Regular) {name : String}
    (member : name ∈ model.declaredNames) :
    ∃ suffix ∈ typeSuffixes, name = model.operation.typePrefix ++ suffix := by
  rw [declaredNames_eq] at member
  obtain ⟨suffix, listed, rfl⟩ := List.mem_map.mp member
  exact ⟨suffix, regular.suffixes_sublist.subset listed, rfl⟩

/-- Operations share no name unless they have the same prefix; then they share the argument's. -/
theorem disjoint_iff (regular : model.Regular) (regularToo : other.Regular) :
    model.declaredNames.Disjoint other.declaredNames ↔
      model.operation.typePrefix ≠ other.operation.typePrefix := by
  constructor
  · intro disjoint same
    have shared : model.requestType = other.requestType := by rw [requestType, requestType, same]
    exact disjoint (a := model.requestType) List.mem_cons_self (shared ▸ List.mem_cons_self)
  · -- A shared name is cut in one way, into a prefix and a suffix.
    intro different name mine yours
    obtain ⟨suffix, listed, rfl⟩ := regular.mem_declaredNames mine
    obtain ⟨suffixToo, listedToo, same⟩ := regularToo.mem_declaredNames yours
    exact different (append_inj_of_suffixes listed listedToo same).1

theorem usable_prefix (regular : model.Regular) : Usable model.operation.typePrefix.toList := by
  unfold Operation.typePrefix capitalize
  rw [String.toList_ofList]
  exact (usable_of_isIdentifierList regular.identifier).capitalizeList

theorem exportedTypes_items (quotes : QuoteStyle) (regular : model.Regular) :
    exportedTypes (model.items quotes) = model.declaredNames := by
  have usable : ∀ name ∈ model.declaredNames, Usable name.toList := by
    have suffixes : ∀ suffix ∈ typeSuffixes, suffix.toList.all isIdentifierChar = true := by decide
    intro name member
    obtain ⟨suffix, listed, rfl⟩ := regular.mem_declaredNames member
    rw [String.toList_append]
    exact usable_append.mpr ⟨regular.usable_prefix, usable_of_all (suffixes suffix listed)⟩
  simp only [declaredNames, List.cons_append, List.forall_mem_cons, List.forall_mem_append,
    List.forall_mem_map] at usable
  obtain ⟨request, responses, union, _⟩ := usable
  have first : (Declaration.item quotes ⟨model.requestType, .alias model.request.type⟩).exportedType? =
      some model.requestType := exportedType?_declaration quotes request
  have alternatives : exportedTypes (model.alternatives.map fun alternative =>
      aliasLine quotes (model.responseType alternative.status) alternative.type) =
      model.alternatives.map fun alternative => model.responseType alternative.status :=
    exportedTypes_map fun alternative member =>
      exportedType?_aliasLine quotes (responses alternative member) _
  have last := exportedType?_aliasLine quotes union model.responses
  unfold items declaredNames
  rw [List.cons_append, List.cons_append, exportedTypes, List.filterMap_cons_none rfl,
    List.filterMap_cons_some first, ← exportedTypes, exportedTypes_append, alternatives,
    exportedTypes, List.filterMap_cons_some last, List.filterMap_nil, List.cons_append]

end OperationModel.Regular

theorem nodup_declaredNames_iff {models : List OperationModel}
    (regular : ∀ model ∈ models, model.Regular) :
    (models.flatMap (·.declaredNames)).Nodup ↔ (models.map (·.operation.typePrefix)).Nodup := by
  have each : ∀ model ∈ models, model.declaredNames.Nodup :=
    fun model member => (regular model member).nodup_declaredNames
  rw [List.nodup_flatMap, and_iff_right each, List.Nodup, List.pairwise_map]
  refine List.Pairwise.iff_of_mem fun mine yours => ?_
  exact (regular _ mine).disjoint_iff (regular _ yours)

end Operations

/-- A reference whose component the types of a client come to. -/
def Document.UsesReference (document : Document) (settings : Settings) (reference : String) :
    Prop :=
  ∃ schema, document.Uses settings schema ∧ document.Reaches schema reference

section Model
variable {document : Document} {settings : Settings} {reserved : List String} {model : ClientModel}

theorem statuses_sublist (settings : Settings) (operation : Operation) :
    ((alternativeShapes settings operation).map (·.status)).Sublist StatusClass.all := by
  unfold alternativeShapes
  generalize operation.classified.map _ = bodies
  have kept : ∀ status alternative,
      alternative? settings.fullResponse bodies status = some alternative →
        alternative.status = status := by
    intro status alternative given
    unfold alternative? at given
    split at given
    · cases given
    · cases given
      rfl
  generalize StatusClass.all = statuses
  induction statuses with
  | nil => exact .refl _
  | cons status rest ih =>
    cases given : alternative? settings.fullResponse bodies status with
    | none =>
      rw [List.filterMap_cons_none given]
      exact ih.cons _
    | some alternative =>
      rw [List.filterMap_cons_some given, List.map_cons, kept status alternative given]
      exact ih.cons_cons _

theorem regular_of_build (built : ClientModel.build document settings reserved = .ok model) :
    ∀ operation ∈ model.operations, operation.Regular := by
  obtain ⟨operations, _, resolved, _, _, models, _⟩ := ClientModel.of_build built
  obtain ⟨_, _, ids⟩ := Document.operations_eq_ok_iff.mp resolved
  intro given member
  obtain ⟨operation, listed, registry, _, rfl⟩ := exists_left_of_forall₂ models member
  have handed : operation.id ∈ handOut reserved (document.declared.map Declared.request) := by
    rw [← ids]
    exact List.mem_map_of_mem listed
  exact ⟨isIdentifier_of_mem_handOut handed, statuses_sublist settings operation⟩

theorem Document.Complete.declared_names {propsOptional : Bool} {registry : Registry}
    (complete : document.Complete propsOptional registry) :
    registry.declarations.map (·.name) = registry.references.map referenceTypeName := by
  have each : ∀ reference ∈ registry.references,
      (document.declarationOf propsOptional reference).map (·.name) =
        some (referenceTypeName reference) := by
    intro reference member
    obtain ⟨target, resolved, _⟩ := complete.settled reference member
    rw [declarationOf, resolved, Option.map_some, Option.map_some, componentDeclaration_name]
  apply List.map_injective_iff.mpr fun _ _ => Option.some.inj
  calc (registry.declarations.map (·.name)).map some
      = (registry.declarations.map some).map (Option.map (·.name)) := by
        rw [List.map_map, List.map_map]
        rfl
    _ = registry.references.map fun reference =>
          (document.declarationOf propsOptional reference).map (·.name) := by
        rw [complete.declarations_eq, List.map_map]
        rfl
    _ = (registry.references.map referenceTypeName).map some := by
        rw [List.map_congr_left each, List.map_map]
        rfl

/-- A component is declared for each reference that is used, once, under its type name. -/
theorem components_of_build (built : ClientModel.build document settings reserved = .ok model) :
    ∃ references : List String, references.Nodup ∧
      (∀ reference, reference ∈ references ↔ document.UsesReference settings reference) ∧
      model.declarations.map (·.name) = references.map referenceTypeName := by
  obtain ⟨operations, registry, resolved, walk, complete, _, declarations⟩ :=
    ClientModel.of_build built
  have pairs := (Document.operations_eq_ok_iff.mp resolved).2.1
  -- What was entered is what the steps reach, and all steps come of schemas that are used.
  refine ⟨registry.references, complete.distinct, fun reference => ⟨?_, ?_⟩, ?_⟩
  · intro member
    rcases walk.reached reference member with old | ⟨first, met, reaches⟩
    · cases old
    · obtain ⟨schema, uses, met⟩ := (Document.mem_steps_iff pairs).mp met
      exact ⟨schema, uses, Document.reaches_of_meet met reaches⟩
  · rintro ⟨schema, uses, reaches⟩
    apply reaches.mem_of_settled complete.settled
    exact fun other met => walk.settles.1 _ ((Document.mem_steps_iff pairs).mpr ⟨schema, uses, met⟩)
  · rw [declarations]
    exact complete.declared_names

end Model

section File
variable {document : Document} {settings : Settings} {model : ClientModel} {artifact : Artifact}

def reservedIds (settings : Settings) : List String :=
  if settings.isFrontend then FetchClient.reservedIds else []

def typesFile (settings : Settings) (model : ClientModel) : List Item :=
  if settings.isFrontend then FetchClient.typeItems settings (ClientName.ofText settings.name) model
  else ServiceClient.typeItems settings (ClientName.ofText settings.name) model

/-- The types that are written whatever the document holds. -/
def fixedTypes (settings : Settings) : List String :=
  if settings.isFrontend then
    if settings.fullResponse then StatusClass.all.map StatusClass.typeName ++ ["FullResponse"]
    else []
  else ["FullResponse"]

def clientInterface (settings : Settings) : String := (ClientName.ofText settings.name).interface

theorem usable_clientInterface (settings : Settings) :
    Usable (clientInterface settings).toList :=
  ClientName.usable_interface settings.name

theorem of_generate (generated : generate (.openApi document) settings = .ok artifact) :
    ∃ model, ClientModel.build document settings (reservedIds settings) = .ok model ∧
      artifact.types = Item.render Style.standard (typesFile settings model) := by
  simp only [generate, FetchClient.generate, ServiceClient.generate] at generated
  unfold reservedIds typesFile
  split at generated
  case isTrue frontend =>
    simp only [frontend, if_true]
    obtain ⟨model, built, given⟩ := bind_eq_ok_iff.mp generated
    injection given with same
    rw [← same]
    exact ⟨model, built, congrArg (Page.render Style.standard) (FetchClient.stepsOf_typeItems _ _ _).symm⟩
  case isFalse service =>
    simp only [service, if_false, Bool.false_eq_true]
    obtain ⟨model, built, given⟩ := bind_eq_ok_iff.mp generated
    injection given with same
    rw [← same]
    exact ⟨model, built, congrArg (Page.render Style.standard) (ServiceClient.stepsOf_typeItems _ _ _).symm⟩

theorem exportedTypes_declarationItems (quotes : QuoteStyle)
    (usable : ∀ declaration ∈ model.declarations, Usable declaration.name.toList)
    (regular : ∀ operation ∈ model.operations, operation.Regular) :
    exportedTypes (model.declarationItems quotes) =
      model.declarations.map (·.name) ++ model.operations.flatMap (·.declaredNames) := by
  have components : exportedTypes (model.declarations.flatMap fun declaration =>
      [.blank, declaration.item quotes]) = model.declarations.map (·.name) := by
    rw [exportedTypes, List.filterMap_flatMap, ← List.flatMap_pure_eq_map]
    refine List.flatMap_congr fun declaration member => ?_
    rw [List.filterMap_cons_none rfl,
      List.filterMap_cons_some (exportedType?_declaration quotes (usable declaration member))]
    rfl
  have operations : exportedTypes (model.operations.flatMap (·.items quotes)) =
      model.operations.flatMap (·.declaredNames) := by
    rw [exportedTypes, List.filterMap_flatMap]
    exact List.flatMap_congr fun operation member => (regular operation member).exportedTypes_items quotes
  rw [ClientModel.declarationItems, exportedTypes_append, components, operations]

theorem exportedTypes_typesFile
    (built : ClientModel.build document settings (reservedIds settings) = .ok model) :
    exportedTypes (typesFile settings model) =
      fixedTypes settings ++ (model.declarations.map (·.name) ++
        model.operations.flatMap (·.declaredNames)) ++ [clientInterface settings] := by
  obtain ⟨references, _, _, names⟩ := components_of_build built
  have usable : ∀ declaration ∈ model.declarations, Usable declaration.name.toList := by
    intro declaration member
    have listed := List.mem_map_of_mem (f := (·.name)) member
    rw [names] at listed
    obtain ⟨reference, _, same⟩ := List.mem_map.mp listed
    rw [← same]
    exact usable_typeName _
  have declared := exportedTypes_declarationItems Style.standard.quotes usable
    (regular_of_build built)
  have interface : ∀ methods, exportedTypes
      (interfaceItems (ClientName.ofText settings.name).interface methods) =
        [clientInterface settings] :=
    exportedTypes_interfaceItems (usable_clientInterface settings)
  -- Everything else in the files, comments and imports included, exports nothing.
  unfold typesFile fixedTypes
  split
  case isTrue =>
    unfold FetchClient.typeItems
    simp only [exportedTypes_append, exportedTypes_comment, declared, interface,
      exportedTypes_build, List.nil_append, List.append_nil]
    split
    · rw [exportedTypes_append, exportedTypes_codesItems, exportedTypes_fullResponseItems]
    · rfl
  case isFalse =>
    unfold ServiceClient.typeItems
    have imports : exportedTypes (if model.usesFormData then
        [.line ("import \x7b type FormData \x7d from " ++ Factory.literal "undici")]
        else []) = [] := by
      split <;> rfl
    simp only [exportedTypes_append, exportedTypes_comment, declared, interface, imports,
      exportedTypes_import, exportedTypes_factory, exportedTypes_fullResponseItems, List.nil_append,
      List.append_nil]

/-- No two sources of exported names give the same one, and none gives one twice. -/
structure NamesApart (document : Document) (settings : Settings) (model : ClientModel) : Prop where
  components : ∀ first second, document.UsesReference settings first →
    document.UsesReference settings second → referenceTypeName first = referenceTypeName second →
    first = second
  operations : (model.operations.map (·.operation.typePrefix)).Nodup
  component_operation : ∀ reference, document.UsesReference settings reference →
    ∀ operation ∈ model.operations, referenceTypeName reference ∉ operation.declaredNames
  component_fixed : ∀ reference, document.UsesReference settings reference →
    referenceTypeName reference ∉ fixedTypes settings
  interface_component : ∀ reference, document.UsesReference settings reference →
    referenceTypeName reference ≠ clientInterface settings
  interface_operation : ∀ operation ∈ model.operations,
    clientInterface settings ∉ operation.declaredNames
  interface_fixed : clientInterface settings ∉ fixedTypes settings

theorem nodup_fixedTypes (settings : Settings) : (fixedTypes settings).Nodup := by
  unfold fixedTypes
  split
  · split <;> decide
  · decide

theorem OperationModel.Regular.disjoint_fixedTypes {operation : OperationModel}
    (regular : operation.Regular) (settings : Settings) :
    (fixedTypes settings).Disjoint operation.declaredNames := by
  -- None of these names ends in a suffix.
  have apart : ∀ name ∈ StatusClass.all.map StatusClass.typeName ++ ["FullResponse"],
      ∀ suffix ∈ typeSuffixes, ¬ suffix.toList <:+ name.toList := by decide
  intro name fixed declared
  obtain ⟨suffix, listed, rfl⟩ := regular.mem_declaredNames declared
  refine apart (operation.operation.typePrefix ++ suffix) ?_ suffix listed ?_
  case refine_2 =>
    rw [String.toList_append]
    exact List.suffix_append _ _
  unfold fixedTypes at fixed
  split at fixed
  · split at fixed
    · exact fixed
    · cases fixed
  · exact List.mem_append_right _ fixed

/-- The types of a declaration file have different names if the sources of the names give different
ones, and only then. -/
theorem exportedTypes_nodup_iff (generated : generate (.openApi document) settings = .ok artifact) :
    ∃ model, ClientModel.build document settings (reservedIds settings) = .ok model ∧
      artifact.types = Item.render Style.standard (typesFile settings model) ∧
      ((exportedTypes (typesFile settings model)).Nodup ↔ NamesApart document settings model) := by
  obtain ⟨model, built, types⟩ := of_generate generated
  refine ⟨model, built, types, ?_⟩
  have regular := regular_of_build built
  obtain ⟨references, distinct, used, names⟩ := components_of_build built
  have component : ∀ name, name ∈ references.map referenceTypeName ↔
      ∃ reference, document.UsesReference settings reference ∧
        referenceTypeName reference = name := by
    simp only [List.mem_map, used, implies_true]
  rw [exportedTypes_typesFile built, names]
  simp only [List.nodup_append', nodup_fixedTypes, nodup_declaredNames_iff regular,
    List.nodup_map_iff_inj_on distinct, List.nodup_singleton, true_and, List.disjoint_append_right,
    List.disjoint_singleton, List.mem_append, not_or, used]
  constructor
  · rintro ⟨⟨⟨components, operations, apart⟩, fixed, _⟩, interfaceFixed, interfaceComponent,
      interfaceOperation⟩
    exact {
      components := fun first second uses usesToo => components first uses second usesToo
      operations := operations
      component_operation := fun reference uses operation listed declared =>
        apart ((component _).mpr ⟨reference, uses, rfl⟩)
          (List.mem_flatMap.mpr ⟨operation, listed, declared⟩)
      component_fixed := fun reference uses member =>
        fixed member ((component _).mpr ⟨reference, uses, rfl⟩)
      interface_component := fun reference uses same =>
        interfaceComponent ((component _).mpr ⟨reference, uses, same⟩)
      interface_operation := fun operation listed declared =>
        interfaceOperation (List.mem_flatMap.mpr ⟨operation, listed, declared⟩)
      interface_fixed := interfaceFixed }
  · intro apart
    refine ⟨⟨⟨fun first uses second usesToo => apart.components first second uses usesToo,
      apart.operations, ?_⟩, ?_, ?_⟩, apart.interface_fixed, ?_, ?_⟩
    · intro name member declared
      obtain ⟨reference, uses, rfl⟩ := (component _).mp member
      obtain ⟨operation, listed, declared⟩ := List.mem_flatMap.mp declared
      exact apart.component_operation reference uses operation listed declared
    · intro name fixed member
      obtain ⟨reference, uses, rfl⟩ := (component _).mp member
      exact apart.component_fixed reference uses fixed
    · -- The one pair of sources that never clashes.
      intro name fixed declared
      obtain ⟨operation, listed, declared⟩ := List.mem_flatMap.mp declared
      exact (regular operation listed).disjoint_fixedTypes settings fixed declared
    · intro member
      obtain ⟨reference, uses, same⟩ := (component _).mp member
      exact apart.interface_component reference uses same
    · intro declared
      obtain ⟨operation, listed, declared⟩ := List.mem_flatMap.mp declared
      exact apart.interface_operation operation listed declared

theorem tree_exportedTypes_nodup_iff :
    ∃ artifact model,
      generate (.openApi treeDocument) (Settings.standard "forest") = .ok artifact ∧
      ClientModel.build treeDocument (Settings.standard "forest") [] = .ok model ∧
      (exportedTypes (typesFile (Settings.standard "forest") model)).Nodup ∧
      NamesApart treeDocument (Settings.standard "forest") model := by
  obtain ⟨artifact, generated⟩ : ∃ artifact,
      generate (.openApi treeDocument) (Settings.standard "forest") = .ok artifact := ⟨_, rfl⟩
  obtain ⟨model, built, _, apart⟩ := exportedTypes_nodup_iff generated
  have names : (ClientModel.build treeDocument (Settings.standard "forest") []).map (fun model =>
      model.declarations.map (·.name) ++ model.operations.flatMap (·.declaredNames)) =
      .ok ["Node", "Tag", "RootRequest", "RootResponse2xx", "RootResponses", "PlantRequest",
        "PlantResponses"] := by decide +kernel
  replace built : ClientModel.build treeDocument (Settings.standard "forest") [] = .ok model := built
  rw [built] at names
  have distinct : (exportedTypes (typesFile (Settings.standard "forest") model)).Nodup := by
    rw [exportedTypes_typesFile built]
    simp only [Except.map, Except.ok.injEq] at names
    rw [names]
    decide +kernel
  exact ⟨artifact, model, generated, built, distinct, apart.mp distinct⟩

def listsDocument : Document where
  paths := [("/lists", ⟨[], [⟨.get, some "list", [], none, []⟩]⟩),
    ("/archive", ⟨[], [⟨.get, some "List", [], none, []⟩]⟩)]
  components := .empty
  definitions := []

theorem lists_exportedTypes_not_nodup :
    ∃ artifact model,
      generate (.openApi listsDocument) (Settings.standard "lists") = .ok artifact ∧
      artifact.types = Item.render Style.standard (typesFile (Settings.standard "lists") model) ∧
      ¬ (exportedTypes (typesFile (Settings.standard "lists") model)).Nodup := by
  obtain ⟨artifact, generated⟩ : ∃ artifact,
      generate (.openApi listsDocument) (Settings.standard "lists") = .ok artifact := ⟨_, rfl⟩
  obtain ⟨model, built, types⟩ := of_generate generated
  refine ⟨artifact, model, generated, types, ?_⟩
  have names : (ClientModel.build listsDocument (Settings.standard "lists") []).map (fun model =>
      model.declarations.map (·.name) ++ model.operations.flatMap (·.declaredNames)) =
      .ok ["ListRequest", "ListResponses", "ListRequest", "ListResponses"] := by decide +kernel
  replace built : ClientModel.build listsDocument (Settings.standard "lists") [] = .ok model := built
  rw [built] at names
  simp only [Except.map, Except.ok.injEq] at names
  rw [exportedTypes_typesFile built, names]
  decide +kernel

end File

end TypedClient.OpenApi
