import Mathlib.Data.List.Induction
import TypedClient.OpenApi.Decoding
import TypedClient.Proofs.OpenApi.ResolvedOperations

/-! The parameters of an operation: its own, and behind them those of its path.

A parameter of the path counts as long as nothing before it has its name and location.
Whether something has is asked of what the references name, not of the references.
-/

set_option autoImplicit false

namespace TypedClient.OpenApi

section Keys
variable {own shared : List Parameter} {parameter other : Parameter}

def Parameter.key (parameter : Parameter) : String × Location :=
  (parameter.name, parameter.location)

theorem Parameter.sameKey_iff : parameter.sameKey other = true ↔ parameter.key = other.key := by
  rw [sameKey, Bool.and_eq_true, beq_iff_eq, beq_iff_eq, key, key, Prod.mk.injEq]

/-- The shared parameters whose key no own one has and no shared one before them. -/
def addedParameters (own shared : List Parameter) : List Parameter :=
  (shared.zipIdx.filter fun entry =>
    entry.1.key ∉ (own ++ shared.take entry.2).map Parameter.key).map Prod.fst

theorem addedParameters_nil : addedParameters own [] = [] := rfl

theorem addedParameters_concat : addedParameters own (shared ++ [parameter]) =
    addedParameters own shared ++
      if parameter.key ∈ (own ++ shared).map Parameter.key then [] else [parameter] := by
  have earlier : ∀ entry ∈ shared.zipIdx,
      (shared ++ [parameter]).take entry.2 = shared.take entry.2 := by
    intro entry member
    have below : entry.2 < shared.length := by
      simpa using List.snd_lt_add_of_mem_zipIdx member
    exact List.take_append_of_le_length (Nat.le_of_lt below)
  unfold addedParameters
  rw [List.zipIdx_append, List.filter_append, List.map_append, List.zipIdx_singleton,
    Nat.zero_add]
  congr 1
  · exact congrArg _ (List.filter_congr fun entry member => by rw [earlier entry member])
  · rw [List.filter_singleton, List.take_left]
    by_cases known : parameter.key ∈ (own ++ shared).map Parameter.key
    · rw [if_pos known, decide_eq_false (not_not_intro known), cond_false, List.map_nil]
    · rw [if_neg known, decide_eq_true known, cond_true, List.map_singleton]

/-- What is left out has a key that is there. -/
theorem mem_keys_addedParameters {key : String × Location} :
    key ∈ (own ++ addedParameters own shared).map Parameter.key ↔
      key ∈ (own ++ shared).map Parameter.key := by
  induction shared using List.reverseRecOn with
  | nil => rw [addedParameters_nil]
  | append_singleton shared parameter ih =>
    have last : key ∈ (own ++ (shared ++ [parameter])).map Parameter.key ↔
        key ∈ (own ++ shared).map Parameter.key ∨ key = parameter.key := by
      rw [← List.append_assoc, List.map_append, List.mem_append, List.map_singleton,
        List.mem_singleton]
    rw [last, addedParameters_concat, ← List.append_assoc, List.map_append, List.mem_append, ih]
    split_ifs with known
    · rw [List.map_nil, or_iff_left List.not_mem_nil]
      exact (or_iff_left_of_imp fun same => same ▸ known).symm
    · rw [List.map_singleton, List.mem_singleton]

theorem mergeParameters_eq : mergeParameters own shared = own ++ addedParameters own shared := by
  induction shared using List.reverseRecOn with
  | nil => exact (List.append_nil own).symm
  | append_singleton shared parameter ih =>
    have present : (own ++ addedParameters own shared).any (·.sameKey parameter) = true ↔
        parameter.key ∈ (own ++ shared).map Parameter.key := by
      rw [← mem_keys_addedParameters, List.any_eq_true, List.mem_map]
      simp only [Parameter.sameKey_iff]
    rw [mergeParameters] at ih ⊢
    rw [List.foldl_append, ih, List.foldl_cons, List.foldl_nil, addedParameters_concat,
      ← List.append_assoc]
    split_ifs with first second second
    · rw [List.append_nil]
    · exact absurd (present.mp first) second
    · exact absurd (present.mpr second) first
    · rfl

theorem nodup_keys_addedParameters (distinct : (own.map Parameter.key).Nodup) :
    ((own ++ addedParameters own shared).map Parameter.key).Nodup := by
  induction shared using List.reverseRecOn with
  | nil => rwa [addedParameters_nil, List.append_nil]
  | append_singleton shared parameter ih =>
    rw [addedParameters_concat, ← List.append_assoc]
    split_ifs with known
    · rwa [List.append_nil]
    · rw [← mem_keys_addedParameters] at known
      rw [List.map_append, List.map_singleton, List.nodup_append]
      refine ⟨ih, List.nodup_singleton _, ?_⟩
      rintro key member _ (_ | ⟨_, ⟨⟩⟩) rfl
      exact known member

end Keys

section References
variable {α : Type} {table : List (String × α)} {place target : String} {content : RefOr α}
  {value : α} {fault : Fault}

/-- The object in place, or the component of the table that the reference names. -/
inductive RefOr.Denotes (table : List (String × α)) (place : String) : RefOr α → α → Prop where
  | item (value : α) : Denotes table place (.item value) value
  | component {target name : String} {value : α} (named : nameIn? place target = some name)
    (found : table.lookup name = some value) : Denotes table place (.reference target) value

def NamesNone (table : List (String × α)) (place target : String) : Prop :=
  ∀ name, nameIn? place target = some name → table.lookup name = none

theorem RefOr.resolve_eq_ok_iff :
    content.resolve table place = .ok value ↔ content.Denotes table place value := by
  cases content with
  | item given =>
    constructor
    · rintro ⟨⟩
      exact .item _
    · rintro ⟨⟩
      rfl
  | reference target =>
    constructor
    · intro given
      rw [resolve] at given
      split at given
      case h_1 found =>
        cases given
        obtain ⟨name, named, found⟩ := Option.bind_eq_some_iff.mp found
        exact .component named found
      case h_2 => cases given
    · rintro (_ | ⟨named, found⟩)
      simp only [resolve, named, Option.bind_some, found]

theorem RefOr.resolve_eq_error_iff : content.resolve table place = .error fault ↔
    ∃ target, content = .reference target ∧ NamesNone table place target ∧
      fault = .unresolvedReference target := by
  cases content with
  | item value => exact iff_of_false (by rintro ⟨⟩) (by rintro ⟨_, ⟨⟩, _⟩)
  | reference target =>
    simp only [reference.injEq, exists_eq_left', resolve]
    cases found : (nameIn? place target).bind fun name => table.lookup name with
    | some value =>
      obtain ⟨name, named, found⟩ := Option.bind_eq_some_iff.mp found
      refine iff_of_false (by rintro ⟨⟩) ?_
      rintro ⟨none, -⟩
      rw [none name named] at found
      cases found
    | none =>
      have none : NamesNone table place target := Option.bind_eq_none_iff.mp found
      exact ⟨by rintro ⟨⟩; exact ⟨none, rfl⟩, by rintro ⟨-, rfl⟩; rfl⟩

theorem NamesNone.not_resolves (none : NamesNone table place target) :
    ¬(RefOr.reference target).Resolves table place := by
  intro resolves
  obtain ⟨name, value, named, found⟩ := resolves target rfl
  rw [none name named] at found
  cases found

end References

namespace Document

variable (document : Document)

structure Merges (declared : Declared) (operation : Operation) : Prop where
  path : operation.path = declared.path
  method : operation.method = declared.operation.method
  parameters : ∃ own shared,
    List.Forall₂ (RefOr.Denotes document.components.parameters parametersSection)
      declared.operation.parameters own ∧
    List.Forall₂ (RefOr.Denotes document.components.parameters parametersSection)
      declared.item.parameters shared ∧
    operation.parameters = own ++ addedParameters own shared ∧
    ((own.map Parameter.key).Nodup → (operation.parameters.map Parameter.key).Nodup)
  body : Option.Rel (RefOr.Denotes document.components.requestBodies requestBodiesSection)
    declared.operation.requestBody operation.requestBody
  responses : List.Forall₂ (fun given response => response.1 = given.1 ∧
      given.2.Denotes document.components.responses responsesSection response.2)
    declared.operation.responses operation.responses

/-- A reference that an operation or a path has and that names no component of its kind. -/
inductive Dangling (target : String) : Prop where
  | shared {path : String} {item : PathItem} (member : (path, item) ∈ document.paths)
    (given : .reference target ∈ item.parameters)
    (none : NamesNone document.components.parameters parametersSection target)
  | parameter {declared : Declared} (member : declared ∈ document.declared)
    (given : .reference target ∈ declared.operation.parameters)
    (none : NamesNone document.components.parameters parametersSection target)
  | body {declared : Declared} (member : declared ∈ document.declared)
    (given : declared.operation.requestBody = some (.reference target))
    (none : NamesNone document.components.requestBodies requestBodiesSection target)
  | response {declared : Declared} {key : String} (member : declared ∈ document.declared)
    (given : (key, .reference target) ∈ declared.operation.responses)
    (none : NamesNone document.components.responses responsesSection target)

variable {document}

section Parts
variable {given : List (RefOr Parameter)} {parameters : List Parameter} {fault : Fault}

theorem resolveParameters_eq_ok_iff : document.resolveParameters given = .ok parameters ↔
    List.Forall₂ (RefOr.Denotes document.components.parameters parametersSection)
      given parameters := by
  rw [resolveParameters, mapM_eq_ok_iff]
  simp only [RefOr.resolve_eq_ok_iff]

theorem resolveBody_eq_ok_iff {given : Option (RefOr RequestBody)} {body : Option RequestBody} :
    document.resolveBody given = .ok body ↔
      Option.Rel (RefOr.Denotes document.components.requestBodies requestBodiesSection) given body := by
  cases given with
  | none =>
    constructor
    · rintro ⟨⟩
      exact .none
    · rintro ⟨⟩
      rfl
  | some given =>
    rw [resolveBody]
    constructor
    · intro found
      obtain ⟨value, resolved, ⟨⟩⟩ := bind_eq_ok_iff.mp ((map_eq_pure_bind _ _).symm.trans found)
      exact .some (RefOr.resolve_eq_ok_iff.mp resolved)
    · rintro (⟨denotes⟩ | _)
      rw [RefOr.resolve_eq_ok_iff.mpr denotes]
      rfl

theorem resolveResponses_eq_ok_iff {given : List (String × RefOr Response)}
    {responses : List (String × Response)} :
    document.resolveResponses given = .ok responses ↔
      List.Forall₂ (fun given response => response.1 = given.1 ∧
        given.2.Denotes document.components.responses responsesSection response.2) given responses := by
  have each (entry : String × RefOr Response) (response : String × Response) :
      (do let value ← entry.2.resolve document.components.responses responsesSection
          return (entry.1, value)) = Except.ok response ↔
        response.1 = entry.1 ∧
          entry.2.Denotes document.components.responses responsesSection response.2 := by
    rw [bind_eq_ok_iff]
    constructor
    · rintro ⟨value, resolved, ⟨⟩⟩
      exact ⟨rfl, RefOr.resolve_eq_ok_iff.mp resolved⟩
    · rintro ⟨same, denotes⟩
      exact ⟨_, RefOr.resolve_eq_ok_iff.mpr denotes, by rw [← same]; rfl⟩
  rw [resolveResponses, mapM_eq_ok_iff]
  simp only [each]

theorem exists_of_resolveParameters (failed : document.resolveParameters given = .error fault) :
    ∃ target, .reference target ∈ given ∧
      NamesNone document.components.parameters parametersSection target ∧
      fault = .unresolvedReference target := by
  obtain ⟨_, member, found⟩ := exists_error_of_mapM failed
  obtain ⟨target, rfl, none, same⟩ := RefOr.resolve_eq_error_iff.mp found
  exact ⟨target, member, none, same⟩

theorem merges_of_gives {declared : Declared} {operation : Operation}
    (gives : document.Gives declared operation) : document.Merges declared operation where
  path := gives.path
  method := gives.method
  parameters := by
    obtain ⟨own, shared, ownFound, sharing, merged⟩ := gives.parameters
    rw [mergeParameters_eq] at merged
    refine ⟨own, shared, resolveParameters_eq_ok_iff.mp ownFound,
      resolveParameters_eq_ok_iff.mp sharing, merged, fun distinct => ?_⟩
    rw [merged]
    exact nodup_keys_addedParameters distinct
  body := resolveBody_eq_ok_iff.mp gives.body
  responses := resolveResponses_eq_ok_iff.mp gives.responses

end Parts

section Failures
variable {path : String} {item : PathItem} {shared : List Parameter} {taken : List String}
  {fault : Fault}

theorem exists_dangling_of_operation {operation : PathOperation}
    (member : ⟨path, item, operation⟩ ∈ document.declared)
    (failed : document.operation taken path shared operation = .error fault) :
    ∃ target, document.Dangling target ∧ fault = .unresolvedReference target := by
  rw [Document.operation, bind_eq_error_iff] at failed
  rcases failed with failed | ⟨own, -, failed⟩
  · obtain ⟨target, given, none, same⟩ := exists_of_resolveParameters failed
    exact ⟨target, .parameter member given none, same⟩
  rcases bind_eq_error_iff.mp failed with failed | ⟨body, -, failed⟩
  · cases given : operation.requestBody with
    | none =>
      rw [given] at failed
      cases failed
    | some body =>
      rw [given, resolveBody, map_eq_pure_bind, bind_eq_error_iff] at failed
      rcases failed with failed | ⟨_, -, ⟨⟩⟩
      obtain ⟨target, rfl, none, same⟩ := RefOr.resolve_eq_error_iff.mp failed
      exact ⟨target, .body member given none, same⟩
  rcases bind_eq_error_iff.mp failed with failed | ⟨_, -, ⟨⟩⟩
  obtain ⟨⟨key, response⟩, given, failed⟩ := exists_error_of_mapM failed
  rcases bind_eq_error_iff.mp failed with failed | ⟨_, -, ⟨⟩⟩
  obtain ⟨target, rfl, none, same⟩ := RefOr.resolve_eq_error_iff.mp failed
  exact ⟨target, .response member given none, same⟩

theorem exists_dangling_of_pathOperations {operations : List PathOperation}
    (member : ∀ operation ∈ operations, ⟨path, item, operation⟩ ∈ document.declared)
    (failed : document.pathOperations path shared operations taken = .error fault) :
    ∃ target, document.Dangling target ∧ fault = .unresolvedReference target := by
  induction operations generalizing taken with
  | nil => cases failed
  | cons operation rest ih =>
    obtain ⟨own, others⟩ := List.forall_mem_cons.mp member
    rw [pathOperations, bind_eq_error_iff] at failed
    rcases failed with failed | ⟨first, -, failed⟩
    · exact exists_dangling_of_operation own failed
    · rcases bind_eq_error_iff.mp failed with failed | ⟨_, -, ⟨⟩⟩
      exact ih others failed

theorem exists_dangling_of_operationsOf {paths : List (String × PathItem)}
    (member : ∀ entry ∈ paths, entry ∈ document.paths)
    (failed : document.operationsOf paths taken = .error fault) :
    ∃ target, document.Dangling target ∧ fault = .unresolvedReference target := by
  induction paths generalizing taken with
  | nil => cases failed
  | cons entry rest ih =>
    obtain ⟨own, others⟩ := List.forall_mem_cons.mp member
    rw [operationsOf, bind_eq_error_iff] at failed
    rcases failed with failed | ⟨shared, -, failed⟩
    · obtain ⟨target, given, none, same⟩ := exists_of_resolveParameters failed
      exact ⟨target, .shared own given none, same⟩
    rcases bind_eq_error_iff.mp failed with failed | ⟨_, -, failed⟩
    · exact exists_dangling_of_pathOperations
        (fun operation listed => mem_declared_iff.mpr ⟨own, listed⟩) failed
    · rcases bind_eq_error_iff.mp failed with failed | ⟨_, -, ⟨⟩⟩
      exact ih others failed

theorem Dangling.not_resolves {target : String} (dangling : document.Dangling target) :
    ¬document.Resolves := by
  intro resolves
  cases dangling with
  | shared member given none => exact none.not_resolves (resolves.shared _ member _ given)
  | parameter member given none => exact none.not_resolves (resolves.parameters _ member _ given)
  | body member given none => exact none.not_resolves (resolves.bodies _ member _ given)
  | response member given none => exact none.not_resolves (resolves.responses _ member _ given)

end Failures

end Document

section Decoded
variable {α β : Type} {fields : Json.Fields α} {next : α → Json.Fields β} {row rest : Json.Row}
  {members : Json.Members} {method : Method} {value : Json.Value}

theorem exists_row_of_record {result : α}
    (read : Json.Decoder.record fields value = some result) :
    ∃ row rest, fields row = some (result, rest) := by
  cases value with
  | object members =>
    obtain ⟨⟨_, rest⟩, found, rfl⟩ := Option.map_eq_some_iff.mp read
    exact ⟨_, rest, found⟩
  | array items =>
    rw [Json.Decoder.record] at read
    split at read
    case h_1 found =>
      cases read
      exact ⟨_, _, found⟩
    case h_2 => cases read
  | _ => cases read

theorem exists_of_fields_bind {result : β} (read : (fields >>= next) row = some (result, rest)) :
    ∃ first middle, fields row = some (first, middle) ∧ next first middle = some (result, rest) := by
  obtain ⟨⟨first, middle⟩, found, read⟩ := Option.bind_eq_some_iff.mp read
  exact ⟨first, middle, found, read⟩

theorem method_of_decoder {declared : PathOperation}
    (read : PathOperation.decoder method value = some declared) : declared.method = method := by
  obtain ⟨row, rest, read⟩ := exists_row_of_record read
  obtain ⟨operationId, _, -, read⟩ := exists_of_fields_bind read
  obtain ⟨summary, _, -, read⟩ := exists_of_fields_bind read
  obtain ⟨parameters, _, -, read⟩ := exists_of_fields_bind read
  obtain ⟨requestBody, _, -, read⟩ := exists_of_fields_bind read
  obtain ⟨responses, _, -, read⟩ := exists_of_fields_bind read
  cases read
  rfl

/-- A path item has an operation for each of its members that is a method. -/
theorem methods_of_decoder {item : PathItem}
    (read : PathItem.decoder (.object members) = some item) :
    item.operations.map (·.method) = members.filterMap fun entry => Method.ofKey? entry.1 := by
  obtain ⟨parameters, -, given⟩ := Option.bind_eq_some_iff.mp read
  obtain ⟨operations, found, ⟨⟩⟩ := Option.bind_eq_some_iff.mp given
  have named := map_eq_map_of_mapM (fun _ _ => method_of_decoder) found
  rw [named, List.map_filterMap]
  refine List.filterMap_congr ?_
  rintro ⟨key, value⟩ -
  simp only [Option.map_map]
  exact congrFun Option.map_id (Method.ofKey? key)

end Decoded

namespace Document

/-- There is an operation for each method that a path has, with its own parameters and what is
added by the path, unless a reference names nothing. -/
theorem operations_merge (document : Document) (reserved : List String) :
    (∀ members item, PathItem.decoder (.object members) = some item →
      item.operations.map (·.method) = members.filterMap fun entry => Method.ofKey? entry.1) ∧
    (∀ operations, document.operations reserved = .ok operations →
      List.Forall₂ document.Merges document.declared operations) ∧
    (∀ fault, document.operations reserved = .error fault →
      ∃ target, document.Dangling target ∧ fault = .unresolvedReference target) ∧
    ((∃ fault, document.operations reserved = .error fault) ↔
      ∃ target, document.Dangling target) := by
  have dangles : ∀ fault, document.operations reserved = .error fault →
      ∃ target, document.Dangling target ∧ fault = .unresolvedReference target :=
    fun fault failed => exists_dangling_of_operationsOf (fun _ member => member) failed
  refine ⟨fun _ _ => methods_of_decoder, fun operations given => ?_, dangles, ?_, ?_⟩
  · obtain ⟨-, each, -⟩ := operations_eq_ok_iff.mp given
    exact each.imp fun _ _ => merges_of_gives
  · rintro ⟨fault, failed⟩
    obtain ⟨target, dangling, -⟩ := dangles fault failed
    exact ⟨target, dangling⟩
  · rintro ⟨target, dangling⟩
    cases outcome : document.operations reserved with
    | error fault => exact ⟨fault, rfl⟩
    | ok operations =>
      exact absurd ((operations_ok_iff reserved).mp ⟨operations, outcome⟩) dangling.not_resolves

def pagedDocument : Document where
  paths := [
    ("/items", {
      parameters := [.reference "#/components/parameters/Page", .item ⟨"id", .header, false, none⟩,
        .item ⟨"page", .query, true, none⟩]
      operations := [
        { method := .get, operationId := some "list", parameters := [.item ⟨"id", .query, true, none⟩]
          requestBody := none, responses := [] },
        { method := .put, operationId := some "fill", parameters := [.item ⟨"page", .query, true, none⟩]
          requestBody := none, responses := [] }] }),
    ("/none", { parameters := [.reference "#/components/parameters/Page"], operations := [] })]
  components := { Components.empty with parameters := [("Page", ⟨"page", .query, false, none⟩)] }
  definitions := []

def withoutPage : Document := { pagedDocument with
  paths := pagedDocument.paths.drop 1, components := Components.empty }

theorem pagedDocument_operations :
    (∃ operations, pagedDocument.operations [] = .ok operations ∧
      List.Forall₂ pagedDocument.Merges pagedDocument.declared operations ∧
      operations.map (·.parameters.map Parameter.key) =
        [[("id", .query), ("page", .query), ("id", .header)], [("page", .query), ("id", .header)]]) ∧
    ∃ fault, withoutPage.operations [] = .error fault := by
  constructor
  · have given : ∃ operations, pagedDocument.operations [] = .ok operations ∧
        operations.map (·.parameters.map Parameter.key) =
          [[("id", .query), ("page", .query), ("id", .header)],
            [("page", .query), ("id", .header)]] := ⟨_, rfl, rfl⟩
    obtain ⟨operations, given, keys⟩ := given
    exact ⟨operations, given, (operations_merge pagedDocument []).2.1 operations given, keys⟩
  · exact (operations_merge withoutPage []).2.2.2.mpr
      ⟨"#/components/parameters/Page", .shared List.mem_cons_self List.mem_cons_self
        fun _ _ => rfl⟩

end Document

end TypedClient.OpenApi
