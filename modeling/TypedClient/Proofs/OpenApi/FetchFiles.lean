import TypedClient.Proofs.Lists
import TypedClient.Proofs.OpenApi.FetchStatements
import TypedClient.Proofs.Script.FreeNames

/-! The two files of a fetch client, as callers see them. -/

set_option autoImplicit false

namespace TypedClient.OpenApi.FetchClient

open Script

section Interface
variable {model : OperationModel}

theorem Named.method?_method (named : Named model) :
    (Item.line model.method.text).method? = some (callable model) := by
  have opens : Whole "(" [.mark '('] := fun _ => rfl
  have colon : Whole ": " [.mark ':'] := fun _ => rfl
  have closes : Whole "): " [.mark ')', .mark ':'] := fun _ => rfl
  have promise : Whole "Promise<" [.word "Promise", .mark '<'] := fun _ => rfl
  have ends : Whole ">" [.mark '>'] := fun _ => rfl
  have stop : Whole ";" [.mark ';'] := fun _ => rfl
  have argument := ((reads_marked model (@reads_identifier "req" rfl)).append_whole colon rfl
    ).append_reads named.request
  have result := (promise.append_reads named.responses).append_whole ends rfl
  have text := (((((reads_identifier named.id).append_whole opens rfl).append_reads argument).append_whole
    closes rfl).append result).append stop
  have found := congrArg (·.bind methodOf) (tokens?_of_reads (.inl text))
  refine Eq.trans found ?_
  simp [methodOf, optionalAt_markTokens, callable]

def ownCallables : List Callable := [⟨"setBaseUrl", false⟩, ⟨"setDefaultHeaders", false⟩]

theorem interfaceMethods?_typeItems {settings : Settings} {name : ClientName} {client : ClientModel}
    (usable : Text.Usable name.interface.toList)
    (named : ∀ model ∈ client.operations, Named model) :
    interfaceMethods? name.interface (typeItems settings name client) =
      some (ownCallables ++ client.operations.map callable) := by
  have exported : (Item.block ("export interface " ++ name.interface)
      ((client.methods ownMethods).map fun method => .line method.text) "").exportedType? =
        some name.interface :=
    exportedName?_eq_some "export interface " [] (by decide) usable
      (by rw [String.toList_append, List.append_nil]) (by rintro c ⟨⟩)
  have own : (ownMethods.map fun method => Item.line method.text).mapM Item.method? =
      some ownCallables := by decide +kernel
  have operations : ((client.operations.map (·.method)).map fun method =>
      Item.line method.text).mapM Item.method? = some (client.operations.map callable) := by
    rw [List.map_map, List.mapM_map]
    exact mapM_eq_some_of_forall fun model member => (named model member).method?_method
  have methods : ((client.methods ownMethods).map fun method =>
      Item.line method.text).mapM Item.method? =
        some (ownCallables ++ client.operations.map callable) := by
    rw [ClientModel.methods, List.map_append, List.mapM_append, own, operations]
    rfl
  unfold typeItems interfaceItems
  rw [List.append_assoc, List.cons_append, List.append_cons, List.singleton_append,
    interfaceMethods?_append exported (exportedTypes_build name.interface)]
  exact methods

end Interface

section Module
variable (settings : Settings) (name : ClientName) (client : ClientModel)

def earlierItems : List Item :=
  let dialect := Dialect.ofSettings settings
  (importStatements settings name).flatMap Statement.items ++
    (stateStatements dialect ++ helperStatements dialect).flatMap Statement.items ++
    client.operations.flatMap (fun model => (operationStatement dialect model).items) ++
    client.operations.flatMap (fun model => (wrapperStatement dialect name.interface model).items)

theorem implementationItems_eq :
    implementationItems settings name client = earlierItems settings name client ++
      (buildStatement (Dialect.ofSettings settings) name.interface client).items := by
  simp [implementationItems, statements, earlierItems, List.flatMap_map]

def helperNames : List String :=
  ["baseUrl", "defaultHeaders", "sanitizeUrl", "setBaseUrl", "setDefaultHeaders", "readBody"]

/-- The first statements are the same for all operations. -/
theorem helperItems (dialect : Dialect) :
    let items := (stateStatements dialect ++ helperStatements dialect).flatMap Statement.items
    functions items = [⟨"sanitizeUrl", false⟩, ⟨"readBody", false⟩] ∧
      wrappers items = [⟨"setBaseUrl", ["sanitizeUrl"]⟩, ⟨"setDefaultHeaders", []⟩] ∧
      moduleNames items = helperNames ∧
      moduleReferences? items = some ["baseUrl", "sanitizeUrl", "defaultHeaders"] ∧
      Shows items [] [] := by
  have closed : ∀ typeScript : Bool,
      let dialect : Dialect := ⟨typeScript, false, false, false⟩
      let items := (stateStatements dialect ++ helperStatements dialect).flatMap Statement.items
      functions items = [⟨"sanitizeUrl", false⟩, ⟨"readBody", false⟩] ∧
        wrappers items = [⟨"setBaseUrl", ["sanitizeUrl"]⟩, ⟨"setDefaultHeaders", []⟩] ∧
        moduleNames items = helperNames ∧
        moduleReferences? items = some ["baseUrl", "sanitizeUrl", "defaultHeaders"] ∧
        Shows items [] [] := by
    unfold Shows
    decide +kernel
  exact closed dialect.typeScript

theorem importItems :
    let items := (importStatements settings name).flatMap Statement.items
    functions items = [] ∧ wrappers items = [] ∧ ∀ declared, Uses items declared := by
  rw [importStatements_items]
  dsimp only
  split
  case isTrue =>
    have blank : Shows [.blank] [] [] := rfl
    have found := (Shows.line (reads_importLine settings name.stem) rfl rfl).append blank
    refine ⟨rfl, rfl, fun declared => ?_⟩
    apply found.uses
    simp [Within, accesses, chain]
  case isFalse => exact ⟨rfl, rfl, uses_nil⟩

variable {settings name client}

section Readings
variable (usable : Text.Usable name.interface.toList)
  (named : ∀ model ∈ client.operations, Named model)
include usable named

theorem functions_earlierItems :
    functions (earlierItems settings name client) =
      [⟨"sanitizeUrl", false⟩, ⟨"readBody", false⟩] ++
        client.operations.map (fun model => ⟨privateName model.id,
          (Dialect.ofSettings settings).typeScript && !model.request.required⟩) := by
  obtain ⟨imported, _, _⟩ := importItems settings name
  obtain ⟨helpers, _⟩ := helperItems (Dialect.ofSettings settings)
  have operations := filterMap_flatMap_eq_map fun model member =>
    (named model member).function?_operationStatement (Dialect.ofSettings settings)
  have none := filterMap_flatMap_eq_nil fun model member =>
    (named model member).function?_wrapperStatement (Dialect.ofSettings settings) usable
  unfold functions earlierItems at *
  simp only [List.filterMap_append, imported, helpers, operations, none, List.nil_append,
    List.append_nil]

theorem functions_implementationItems :
    ∃ optional, functions (implementationItems settings name client) =
      [⟨"sanitizeUrl", false⟩, ⟨"readBody", false⟩] ++
        client.operations.map (fun model => ⟨privateName model.id,
          (Dialect.ofSettings settings).typeScript && !model.request.required⟩) ++
        [⟨"build", optional⟩] := by
  obtain ⟨item, build, ⟨optional, found⟩, _, _⟩ :=
    buildStatement_item (Dialect.ofSettings settings) usable client
  refine ⟨optional, ?_⟩
  rw [implementationItems_eq, build, functions, List.filterMap_append, ← functions,
    functions_earlierItems usable named, List.filterMap_cons_none rfl,
    List.filterMap_cons_some found, List.filterMap_nil]

theorem wrappers_implementationItems :
    wrappers (implementationItems settings name client) =
      [⟨"setBaseUrl", ["sanitizeUrl"]⟩, ⟨"setDefaultHeaders", []⟩] ++
        client.operations.map fun model => ⟨model.id, [privateName model.id]⟩ := by
  obtain ⟨_, imported, _⟩ := importItems settings name
  obtain ⟨_, helpers, _⟩ := helperItems (Dialect.ofSettings settings)
  obtain ⟨item, build, _, found, _⟩ :=
    buildStatement_item (Dialect.ofSettings settings) usable client
  have none := filterMap_flatMap_eq_nil fun model member =>
    (named model member).wrapper?_operationStatement (Dialect.ofSettings settings)
  have operations := filterMap_flatMap_eq_map fun model member =>
    (named model member).wrapper?_wrapperStatement (Dialect.ofSettings settings) usable
  rw [implementationItems_eq, build]
  unfold wrappers earlierItems at *
  simp only [List.filterMap_append, imported, helpers, operations, none, List.nil_append,
    List.append_nil]
  rw [List.filterMap_cons_none rfl, List.filterMap_cons_none found, List.filterMap_nil,
    List.append_nil]

theorem returnedMembers?_implementationItems
    (distinct : ∀ model ∈ client.operations, model.id ≠ "Types") :
    returnedMembers? "build" (implementationItems settings name client) =
      some ((members client).map Member.name) := by
  obtain ⟨item, build, ⟨optional, found⟩, _, body⟩ :=
    buildStatement_item (Dialect.ofSettings settings) usable client
  -- No function before it is called `build`, since an operation's has an underscore.
  have others : ∀ callable ∈ functions (earlierItems settings name client ++ [.blank]),
      callable.name ≠ "build" := by
    rw [functions, List.filterMap_append, ← functions, functions_earlierItems usable named]
    simp [Item.function?, privateName_ne "build" (by decide)]
  have named_ : item.function?.any (·.name = "build") = true := by
    rw [found]
    rfl
  rw [implementationItems_eq, build, List.append_cons,
    returnedMembers?_append others named_, body, returned?_buildBody named distinct]

theorem uses_implementationItems {declared : List String}
    (distinct : ∀ model ∈ client.operations, model.id ≠ "Types")
    (interface : name.interface ∈ declared)
    (types : ∀ model ∈ client.operations, model.requestType ∈ declared ∧ model.responsesType ∈ declared) :
    Uses (implementationItems settings name client) declared := by
  obtain ⟨_, _, imported⟩ := importItems settings name
  obtain ⟨_, _, _, _, helpers⟩ := helperItems (Dialect.ofSettings settings)
  have operations := uses_flatMap fun model member =>
    (named model member).uses_operationStatement (Dialect.ofSettings settings)
      (types model member).1 (types model member).2
  have around := uses_flatMap fun model member =>
    (named model member).uses_wrapperStatement (Dialect.ofSettings settings) usable
      (distinct model member) interface
  have build := uses_buildStatement (Dialect.ofSettings settings) named distinct usable interface
  rw [implementationItems_eq]
  exact ((((imported declared).append (helpers.uses (List.forall_mem_nil _))).append
    operations).append around).append build

end Readings

end Module

end TypedClient.OpenApi.FetchClient
