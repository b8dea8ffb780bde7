import TypedClient.OpenApi.Operation
import TypedClient.Proofs.OpenApi.OperationIds

/-! The operations of a document, one for each that is declared.

An operation is what is declared with its references resolved and the parameters of its
path behind its own. The ids are handed out in the order of the declarations. Nothing but
a reference that leads nowhere keeps a document from having operations.
-/

set_option autoImplicit false

namespace TypedClient.OpenApi

section References
variable {α : Type} {table : List (String × α)} {place : String} {content : RefOr α}

def RefOr.Resolves (table : List (String × α)) (place : String) (content : RefOr α) : Prop :=
  ∀ target, content = .reference target →
    ∃ name value, nameIn? place target = some name ∧ table.lookup name = some value

theorem RefOr.resolves_iff :
    content.Resolves table place ↔ ∃ value, content.resolve table place = .ok value := by
  cases content with
  | item value => exact iff_of_true (fun _ other => by cases other) ⟨value, rfl⟩
  | reference target =>
    constructor
    · intro resolves
      obtain ⟨name, value, named, found⟩ := resolves target rfl
      exact ⟨value, by simp only [resolve, named, Option.bind_some, found]⟩
    · rintro ⟨value, given⟩ _ ⟨⟩
      rw [resolve] at given
      split at given
      case h_1 found =>
        obtain ⟨name, named, found⟩ := Option.bind_eq_some_iff.mp found
        exact ⟨name, _, named, found⟩
      case h_2 => cases given

end References

structure Declared where
  path : String
  item : PathItem
  operation : PathOperation

def Declared.request (declared : Declared) : IdRequest :=
  ⟨declared.operation.method, declared.path, declared.operation.operationId⟩

def PathItem.declared (path : String) (item : PathItem) : List Declared :=
  item.operations.map (Declared.mk path item)

def Document.declared (document : Document) : List Declared :=
  document.paths.flatMap fun entry => entry.2.declared entry.1

namespace Document

variable (document : Document)

/-- Every reference from a path, or from an operation to its parameters, its body and its responses
names a component of the kind. -/
structure Resolves : Prop where
  shared : ∀ entry ∈ document.paths, ∀ parameter ∈ entry.2.parameters,
    parameter.Resolves document.components.parameters parametersSection
  parameters : ∀ declared ∈ document.declared, ∀ parameter ∈ declared.operation.parameters,
    parameter.Resolves document.components.parameters parametersSection
  bodies : ∀ declared ∈ document.declared, ∀ body, declared.operation.requestBody = some body →
    body.Resolves document.components.requestBodies requestBodiesSection
  responses : ∀ declared ∈ document.declared, ∀ entry ∈ declared.operation.responses,
    entry.2.Resolves document.components.responses responsesSection

structure Gives (declared : Declared) (operation : Operation) : Prop where
  path : operation.path = declared.path
  method : operation.method = declared.operation.method
  parameters : ∃ own shared, document.resolveParameters declared.operation.parameters = .ok own ∧
    document.resolveParameters declared.item.parameters = .ok shared ∧
    operation.parameters = mergeParameters own shared
  body : document.resolveBody declared.operation.requestBody = .ok operation.requestBody
  responses : document.resolveResponses declared.operation.responses = .ok operation.responses

variable {document}

section Parts

theorem resolveParameters_ok_iff {parameters : List (RefOr Parameter)} :
    (∃ resolved, document.resolveParameters parameters = .ok resolved) ↔ ∀ parameter ∈ parameters,
      parameter.Resolves document.components.parameters parametersSection := by
  simp only [RefOr.resolves_iff]
  exact exists_mapM_ok_iff

theorem resolveBody_ok_iff {body : Option (RefOr RequestBody)} :
    (∃ resolved, document.resolveBody body = .ok resolved) ↔ ∀ given, body = some given →
      given.Resolves document.components.requestBodies requestBodiesSection := by
  cases body with
  | none => exact iff_of_true ⟨none, rfl⟩ (fun _ other => by cases other)
  | some body =>
    simp only [resolveBody, Option.some.injEq, forall_eq', RefOr.resolves_iff]
    cases body.resolve document.components.requestBodies requestBodiesSection with
    | error fault => exact iff_of_false (by rintro ⟨_, ⟨⟩⟩) (by rintro ⟨_, ⟨⟩⟩)
    | ok value => exact iff_of_true ⟨_, rfl⟩ ⟨_, rfl⟩

theorem resolveResponses_ok_iff {responses : List (String × RefOr Response)} :
    (∃ resolved, document.resolveResponses responses = .ok resolved) ↔ ∀ entry ∈ responses,
      entry.2.Resolves document.components.responses responsesSection := by
  unfold resolveResponses
  rw [exists_mapM_ok_iff]
  refine forall_congr' fun entry => imp_congr_right fun _ => ?_
  rw [RefOr.resolves_iff]
  simp only [bind_eq_ok_iff]
  constructor
  · rintro ⟨_, value, found, _⟩
    exact ⟨value, found⟩
  · rintro ⟨value, found⟩
    exact ⟨_, value, found, rfl⟩

end Parts

section Operations
variable {path : String} {item : PathItem} {shared : List Parameter} {taken after : List String}
  {operation : Operation} {resolved : List Operation}

theorem operation_eq_ok_iff {declared : PathOperation}
    (sharing : document.resolveParameters item.parameters = .ok shared) :
    document.operation taken path shared declared = .ok operation ↔
      document.Gives ⟨path, item, declared⟩ operation ∧
        operation.id = operationIdFor taken declared.method path declared.operationId := by
  unfold Document.operation
  simp only [bind_eq_ok_iff]
  constructor
  · rintro ⟨own, ownFound, body, bodyFound, responses, responsesFound, ⟨⟩⟩
    exact ⟨⟨rfl, rfl, ⟨own, shared, ownFound, sharing, rfl⟩, bodyFound, responsesFound⟩, rfl⟩
  · rintro ⟨⟨samePath, sameMethod, ⟨own, others, ownFound, found, merged⟩, body, responses⟩, sameId⟩
    rw [sharing] at found
    cases found
    refine ⟨own, ownFound, _, body, _, responses, ?_⟩
    cases operation
    simp only at samePath sameMethod merged sameId
    rw [samePath, sameMethod, merged, sameId]
    rfl

theorem pathOperations_eq_ok_iff {operations : List PathOperation}
    (sharing : document.resolveParameters item.parameters = .ok shared) :
    document.pathOperations path shared operations taken = .ok (resolved, after) ↔
      List.Forall₂ document.Gives (operations.map (Declared.mk path item)) resolved ∧
        resolved.map (·.id) =
          handOut taken ((operations.map (Declared.mk path item)).map Declared.request) ∧
        after = (resolved.map (·.id)).reverse ++ taken := by
  -- The ids of the operations before are taken, the last of them first.
  induction operations generalizing resolved taken after with
  | nil =>
    rw [pathOperations, Except.ok.injEq, Prod.mk.injEq, List.map_nil, List.forall₂_nil_left_iff]
    constructor
    · rintro ⟨rfl, rfl⟩
      exact ⟨rfl, rfl, rfl⟩
    · rintro ⟨rfl, _, rfl⟩
      exact ⟨rfl, rfl⟩
  | cons operation rest ih =>
    rw [pathOperations, bind_eq_ok_iff, List.map_cons, List.forall₂_cons_left_iff, List.map_cons]
    simp only [operation_eq_ok_iff sharing, bind_eq_ok_iff, Prod.exists, ih]
    constructor
    · rintro ⟨first, ⟨gives, id⟩, others, _, ⟨each, ids, rfl⟩, ⟨⟩⟩
      refine ⟨⟨first, others, gives, each, rfl⟩, ?_, ?_⟩
      · rw [List.map_cons, handOut, ids, id]
        rfl
      · rw [List.map_cons, List.reverse_cons, List.append_assoc, List.singleton_append]
    · rintro ⟨⟨first, others, gives, each, rfl⟩, ids, rfl⟩
      rw [List.map_cons, handOut, List.cons.injEq] at ids
      obtain ⟨id, ids⟩ := ids
      refine ⟨first, ⟨gives, id⟩, others, _, ⟨each, ?_, rfl⟩, ?_⟩
      · rw [ids, id]
      · rw [List.map_cons, List.reverse_cons, List.append_assoc, List.singleton_append]
        rfl

theorem operationsOf_eq_ok_iff {paths : List (String × PathItem)} :
    document.operationsOf paths taken = .ok resolved ↔
      (∀ entry ∈ paths, ∃ shared, document.resolveParameters entry.2.parameters = .ok shared) ∧
        List.Forall₂ document.Gives (paths.flatMap fun entry => entry.2.declared entry.1) resolved ∧
        resolved.map (·.id) = handOut taken
          ((paths.flatMap fun entry => entry.2.declared entry.1).map Declared.request) := by
  induction paths generalizing taken resolved with
  | nil =>
    rw [operationsOf, List.flatMap_nil, List.forall₂_nil_left_iff, Except.ok.injEq]
    constructor
    · rintro rfl
      exact ⟨fun _ member => absurd member List.not_mem_nil, rfl, rfl⟩
    · rintro ⟨_, none, _⟩
      exact none.symm
  | cons entry rest ih =>
    obtain ⟨path, item⟩ := entry
    rw [operationsOf, bind_eq_ok_iff, List.flatMap_cons, List.map_append, handOut_append,
      List.forall_mem_cons, forall₂_append_left_iff]
    simp only [bind_eq_ok_iff, Prod.exists, ih]
    constructor
    · rintro ⟨shared, sharing, first, _, found, others, ⟨sharings, each, ids⟩, ⟨⟩⟩
      obtain ⟨eachFirst, idsFirst, rfl⟩ := (pathOperations_eq_ok_iff sharing).mp found
      refine ⟨⟨⟨shared, sharing⟩, sharings⟩, ⟨first, others, eachFirst, each, rfl⟩, ?_⟩
      rw [List.map_append, ids, idsFirst]
      rfl
    · rintro ⟨⟨⟨shared, sharing⟩, sharings⟩, ⟨first, others, eachFirst, each, rfl⟩, ids⟩
      -- As many ids go to the operations of the path as there are.
      have length : (first.map (·.id)).length =
          (handOut taken ((item.declared path).map Declared.request)).length := by
        rw [length_handOut, List.length_map, List.length_map]
        exact eachFirst.length_eq.symm
      rw [List.map_append] at ids
      obtain ⟨idsFirst, ids⟩ := List.append_inj ids length
      have found := (pathOperations_eq_ok_iff sharing).mpr ⟨eachFirst, idsFirst, rfl⟩
      refine ⟨shared, sharing, first, _, found, others, ⟨sharings, each, ?_⟩, rfl⟩
      rw [ids, idsFirst]

theorem operations_eq_ok_iff :
    document.operations taken = .ok resolved ↔
      (∀ entry ∈ document.paths,
        ∃ shared, document.resolveParameters entry.2.parameters = .ok shared) ∧
      List.Forall₂ document.Gives document.declared resolved ∧
      resolved.map (·.id) = handOut taken (document.declared.map Declared.request) :=
  operationsOf_eq_ok_iff

end Operations

section Existence
variable {declared : Declared} {operation : Operation}

theorem mem_declared_iff :
    declared ∈ document.declared ↔ (declared.path, declared.item) ∈ document.paths ∧
      declared.operation ∈ declared.item.operations := by
  unfold Document.declared PathItem.declared
  simp only [List.mem_flatMap, List.mem_map]
  constructor
  · rintro ⟨entry, listed, operation, member, rfl⟩
    exact ⟨listed, member⟩
  · rintro ⟨listed, member⟩
    exact ⟨_, listed, _, member, rfl⟩

theorem exists_gives_iff :
    (∃ operation, document.Gives declared operation) ↔
      (∃ own, document.resolveParameters declared.operation.parameters = .ok own) ∧
      (∃ shared, document.resolveParameters declared.item.parameters = .ok shared) ∧
      (∃ body, document.resolveBody declared.operation.requestBody = .ok body) ∧
      ∃ responses, document.resolveResponses declared.operation.responses = .ok responses := by
  constructor
  · rintro ⟨operation, _, _, ⟨own, shared, ownFound, sharing, _⟩, body, responses⟩
    exact ⟨⟨own, ownFound⟩, ⟨shared, sharing⟩, ⟨_, body⟩, ⟨_, responses⟩⟩
  · rintro ⟨⟨own, ownFound⟩, ⟨shared, sharing⟩, ⟨body, bodyFound⟩, ⟨responses, responsesFound⟩⟩
    exact ⟨⟨declared.path, declared.operation.method, "", mergeParameters own shared, body,
      responses⟩, rfl, rfl, ⟨own, shared, ownFound, sharing, rfl⟩, bodyFound, responsesFound⟩

theorem Gives.withId (gives : document.Gives declared operation) (id : String) :
    document.Gives declared { operation with id } :=
  ⟨gives.path, gives.method, gives.parameters, gives.body, gives.responses⟩

theorem exists_gives_ids {all : List Declared} {ids : List String}
    (each : ∀ declared ∈ all, ∃ operation, document.Gives declared operation)
    (length : ids.length = all.length) :
    ∃ operations, List.Forall₂ document.Gives all operations ∧ operations.map (·.id) = ids := by
  induction all generalizing ids with
  | nil => exact ⟨[], .nil, (List.length_eq_zero_iff.mp length).symm⟩
  | cons declared rest ih =>
    obtain ⟨id, ids, rfl⟩ := List.exists_cons_of_length_eq_add_one length
    obtain ⟨operation, gives⟩ := each declared List.mem_cons_self
    have others := fun other member => each other (List.mem_cons_of_mem declared member)
    obtain ⟨operations, pairs, rfl⟩ := ih others (Nat.succ_injective length)
    exact ⟨{ operation with id } :: operations, .cons (gives.withId id) pairs, rfl⟩

theorem exists_operations_iff (reserved : List String) :
    (∃ operations, document.operations reserved = .ok operations) ↔
      (∀ entry ∈ document.paths,
        ∃ shared, document.resolveParameters entry.2.parameters = .ok shared) ∧
      ∀ declared ∈ document.declared, ∃ operation, document.Gives declared operation := by
  simp only [operations_eq_ok_iff]
  constructor
  · rintro ⟨operations, shared, pairs, _⟩
    refine ⟨shared, fun declared member => ?_⟩
    obtain ⟨operation, _, gives⟩ := exists_right_of_forall₂ pairs member
    exact ⟨operation, gives⟩
  · rintro ⟨shared, given⟩
    -- Each declaration gives an operation with some id; all of them get those that are handed out.
    have length : (handOut reserved (document.declared.map Declared.request)).length =
        document.declared.length := (length_handOut _ _).trans (List.length_map _)
    obtain ⟨operations, pairs, ids⟩ := exists_gives_ids given length
    exact ⟨operations, shared, pairs, ids⟩

/-- A document has operations if all references on the way to them resolve. -/
theorem operations_ok_iff (reserved : List String) :
    (∃ operations, document.operations reserved = .ok operations) ↔ document.Resolves := by
  rw [exists_operations_iff]
  simp only [exists_gives_iff, resolveParameters_ok_iff, resolveBody_ok_iff,
    resolveResponses_ok_iff]
  constructor
  · rintro ⟨shared, given⟩
    exact ⟨shared, fun declared member => (given declared member).1,
      fun declared member => (given declared member).2.2.1,
      fun declared member => (given declared member).2.2.2⟩
  · intro resolves
    refine ⟨resolves.shared, fun declared member => ⟨resolves.parameters declared member, ?_,
      resolves.bodies declared member, resolves.responses declared member⟩⟩
    exact resolves.shared _ (mem_declared_iff.mp member).1

end Existence

end Document

end TypedClient.OpenApi
