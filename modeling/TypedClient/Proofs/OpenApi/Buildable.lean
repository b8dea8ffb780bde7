import TypedClient.Proofs.OpenApi.Mappable
import TypedClient.Proofs.OpenApi.OperationWalk
import TypedClient.Proofs.OpenApi.ResolvedOperations

/-! When a client's model is built.

The schemas that a client uses are those of the parameters that callers fill in, of bodies
that are not form data and of responses that have a status class. A model is built if the
references on the way to the operations resolve and every used schema can be mapped; what
else the document holds has no say.
-/

set_option autoImplicit false

namespace TypedClient.OpenApi

def Operation.callerParameters (operation : Operation) : List Parameter :=
  groups.flatMap fun group => operation.parametersIn group.1

section Parameters
variable {settings : Settings} {operation : Operation} {parameter : Parameter}

theorem mem_callerParameters_iff :
    parameter ∈ operation.callerParameters ↔
      parameter ∈ operation.parameters ∧ parameter.location ≠ .cookie := by
  unfold Operation.callerParameters Operation.parametersIn groups
  cases place : parameter.location <;> simp [place]

/-- Parameters of which each is kept unless its name is there already. -/
theorem mem_foldl_unless_named {parameters kept : List Parameter} :
    parameter ∈ parameters.foldl (fun kept parameter =>
        if kept.any (·.name == parameter.name) then kept else kept ++ [parameter]) kept ↔
      parameter ∈ kept ∨ (∀ other ∈ kept, other.name ≠ parameter.name) ∧
        parameters.find? (·.name == parameter.name) = some parameter := by
  induction parameters generalizing kept with
  | nil => simp
  | cons first rest ih =>
    rw [List.foldl_cons, ih, List.find?_cons]
    by_cases same : first.name = parameter.name
    case pos =>
      -- Only the first one can be it, and only if its name is new.
      rw [beq_iff_eq.mpr same, Option.some.injEq]
      split
      case isTrue met =>
        obtain ⟨other, listed, named⟩ := List.any_eq_true.mp met
        have old : ¬ ∀ other ∈ kept, other.name ≠ parameter.name :=
          fun new => new other listed ((beq_iff_eq.mp named).trans same)
        simp only [old, false_and]
      case isFalse new =>
        simp only [List.any_eq_true, beq_iff_eq, not_exists, not_and, same] at new
        simp only [List.mem_append, List.mem_singleton, eq_comm (a := first)]
        grind
    case neg =>
      rw [beq_eq_false_iff_ne.mpr same]
      split
      · rfl
      · grind

/-- Callers fill in the parameter: it is not a cookie, and in flat arguments the first of its name. -/
def Operation.Renders (settings : Settings) (operation : Operation) (parameter : Parameter) :
    Prop :=
  if settings.fullRequest then
    parameter ∈ operation.parameters ∧ parameter.location ≠ .cookie
  else operation.callerParameters.find? (·.name == parameter.name) = some parameter

theorem mem_flatParameters_iff : parameter ∈ operation.flatParameters ↔
    operation.callerParameters.find? (·.name == parameter.name) = some parameter := by
  unfold Operation.flatParameters
  rw [mem_foldl_unless_named]
  simp [Operation.callerParameters]

theorem mem_mappedParameters_iff :
    parameter ∈ operation.mappedParameters settings ↔ operation.Renders settings parameter := by
  unfold Operation.mappedParameters Operation.Renders
  split
  · exact mem_callerParameters_iff
  · exact mem_flatParameters_iff

end Parameters

section Uses
variable {settings : Settings} {operation : Operation} {schema : Schema} {step : Step}

/-- The schemas that the types of an operation are made of. -/
inductive Operation.Uses (settings : Settings) (operation : Operation) : Schema → Prop where
  | parameter {parameter : Parameter} {schema : Schema} : operation.Renders settings parameter →
      parameter.schema = some schema → Uses settings operation schema
  | body {body : RequestBody} {mediaType : String} {schema : Schema} {rest : Content} :
      operation.requestBody = some body → body.content = (mediaType, some schema) :: rest →
      isMultipart mediaType = false → Uses settings operation schema
  | response {key : String} {response : Response} {status : StatusClass} {schema : Schema} :
      (key, response) ∈ operation.responses → StatusClass.ofKey? key = some status →
      response.firstSchema? = some schema → Uses settings operation schema

theorem Operation.bodySchema?_eq_some_iff :
    operation.bodySchema? = some schema ↔ ∃ body mediaType rest, operation.requestBody = some body ∧
      body.content = (mediaType, some schema) :: rest ∧ isMultipart mediaType = false := by
  unfold bodySchema?
  rcases operation.requestBody with _ | ⟨required, _ | ⟨⟨mediaType, given⟩, rest⟩⟩
  · simp
  · simp
  · cases multipart : isMultipart mediaType <;> simp [multipart]

theorem Operation.mem_classified_iff {status : StatusClass} {response : Response} :
    (status, response) ∈ operation.classified ↔
      ∃ key, (key, response) ∈ operation.responses ∧ StatusClass.ofKey? key = some status := by
  simp [classified]

theorem mem_steps?_iff {schema : Option Schema} :
    step ∈ Schema.steps? schema ↔ ∃ given, schema = some given ∧ step ∈ given.steps := by
  cases schema <;> simp [Schema.steps?]

theorem mem_operationSteps_iff :
    step ∈ operationSteps settings operation ↔
      ∃ schema, operation.Uses settings schema ∧ step ∈ schema.steps := by
  unfold operationSteps parameterSteps responseSteps
  simp only [List.mem_append, List.mem_flatMap, mem_steps?_iff, mem_mappedParameters_iff]
  constructor
  · rintro ((⟨schema, used, inside⟩ | ⟨parameter, rendered, schema, used, inside⟩) |
      ⟨⟨status, response⟩, listed, schema, used, inside⟩)
    · obtain ⟨body, mediaType, rest, given, content, single⟩ :=
        Operation.bodySchema?_eq_some_iff.mp used
      exact ⟨schema, .body given content single, inside⟩
    · exact ⟨schema, .parameter rendered used, inside⟩
    · obtain ⟨key, member, classified⟩ := Operation.mem_classified_iff.mp listed
      exact ⟨schema, .response member classified used, inside⟩
  · rintro ⟨schema, uses, inside⟩
    cases uses with
    | @parameter parameter _ rendered used =>
      exact .inl (.inr ⟨parameter, rendered, schema, used, inside⟩)
    | body given content single =>
      have used := Operation.bodySchema?_eq_some_iff.mpr ⟨_, _, _, given, content, single⟩
      exact .inl (.inl ⟨schema, used, inside⟩)
    | response member classified used =>
      exact .inr ⟨_, Operation.mem_classified_iff.mpr ⟨_, member, classified⟩, schema, used, inside⟩

end Uses

namespace Document

variable {document : Document} {settings : Settings} {declared : Declared} {schema : Schema}

def Uses (document : Document) (settings : Settings) (schema : Schema) : Prop :=
  ∃ declared ∈ document.declared, ∃ operation, document.Gives declared operation ∧
    operation.Uses settings schema

theorem Gives.unique {operation other : Operation} (gives : document.Gives declared operation)
    (also : document.Gives declared other) : other = { operation with id := other.id } := by
  obtain ⟨path, method, ⟨own, shared, ownFound, sharing, parameters⟩, body, responses⟩ := gives
  obtain ⟨pathToo, methodToo, ⟨ownToo, sharedToo, ownFoundToo, sharingToo, parametersToo⟩, bodyToo,
    responsesToo⟩ := also
  rw [ownFound] at ownFoundToo
  rw [sharing] at sharingToo
  cases ownFoundToo
  cases sharingToo
  rw [body] at bodyToo
  rw [responses] at responsesToo
  cases other
  simp only at pathToo methodToo parametersToo
  rw [path, method, parameters, Except.ok.inj bodyToo, Except.ok.inj responsesToo, pathToo,
    methodToo, parametersToo]

theorem Gives.uses_of_uses {operation other : Operation} (gives : document.Gives declared operation)
    (also : document.Gives declared other) (uses : operation.Uses settings schema) :
    other.Uses settings schema := by
  -- The two differ in no more than the id, which has no say in what is used.
  rw [gives.unique also]
  cases uses with
  | parameter rendered used => exact .parameter rendered used
  | body given content single => exact .body given content single
  | response member classified used => exact .response member classified used

theorem uses_iff {operations : List Operation}
    (pairs : List.Forall₂ document.Gives document.declared operations) :
    document.Uses settings schema ↔ ∃ operation ∈ operations, operation.Uses settings schema := by
  constructor
  · rintro ⟨declared, member, operation, gives, uses⟩
    obtain ⟨other, listed, also⟩ := exists_right_of_forall₂ pairs member
    exact ⟨other, listed, gives.uses_of_uses also uses⟩
  · rintro ⟨operation, listed, uses⟩
    obtain ⟨declared, member, gives⟩ := exists_left_of_forall₂ pairs listed
    exact ⟨declared, member, operation, gives, uses⟩

theorem mem_steps_iff {operations : List Operation} {step : Step}
    (pairs : List.Forall₂ document.Gives document.declared operations) :
    step ∈ operations.flatMap (operationSteps settings) ↔
      ∃ schema, document.Uses settings schema ∧ step ∈ schema.steps := by
  simp only [List.mem_flatMap, mem_operationSteps_iff, uses_iff pairs]
  constructor
  · rintro ⟨operation, listed, schema, uses, inside⟩
    exact ⟨schema, ⟨operation, listed, uses⟩, inside⟩
  · rintro ⟨schema, ⟨operation, listed, uses⟩, inside⟩
    exact ⟨operation, listed, schema, uses, inside⟩

end Document

namespace ClientModel

variable {document : Document} {settings : Settings} {reserved : List String}

/-- With the operations at hand, a model is built if the walk through their steps succeeds. -/
theorem build_walk (settings : Settings) {operations : List Operation}
    (resolved : document.operations reserved = .ok operations) :
    ∃ outcome final, document.Walk settings.propsOptional
        (operations.flatMap (operationSteps settings)) [] outcome final ∧
      ((∃ model, build document settings reserved = .ok model) ↔ outcome = .ok ()) := by
  have takes := Document.Takes.mapM fun operation (_ : operation ∈ operations) =>
    operationModel_takes document settings operation
  obtain ⟨walk, _⟩ := takes [] .empty
  refine ⟨_, _, walk, ?_⟩
  rw [build_of_operations resolved]
  cases ((operations.mapM (operationModel document settings)).outcome []).1 with
  | error fault => exact iff_of_false (by rintro ⟨_, ⟨⟩⟩) (by rintro ⟨⟩)
  | ok models => exact iff_of_true ⟨_, rfl⟩ rfl

/-- A model is built if the references on the way to the operations resolve and every schema that is
come to from the used ones is sound, and only then. -/
theorem build_ok_iff (document : Document) (settings : Settings) (reserved : List String) :
    (∃ model, build document settings reserved = .ok model) ↔
      document.Resolves ∧ ∀ schema, document.Uses settings schema →
        ∀ other, document.Visits schema other → document.Sound other := by
  rw [← Document.operations_ok_iff reserved]
  cases found : document.operations reserved with
  | error fault =>
    refine iff_of_false ?_ (by rintro ⟨⟨_, ⟨⟩⟩, _⟩)
    rintro ⟨model, built⟩
    rw [build, found] at built
    cases built
  | ok operations =>
    obtain ⟨outcome, final, walk, built⟩ := build_walk settings found
    have pairs := (Document.operations_eq_ok_iff.mp found).2.1
    rw [built, walk.ok_iff, and_iff_right ⟨operations, rfl⟩]
    simp only [Document.mem_steps_iff pairs]
    constructor
    · intro each schema uses
      exact Document.mappable_iff.mpr fun step inside => each step ⟨schema, uses, inside⟩
    · rintro each step ⟨schema, uses, inside⟩
      exact Document.mappable_iff.mp (each schema uses) step inside

/-- All that is broken here is unused: a cookie, a response without a class and a component. -/
def spareDocument : Document where
  paths := [("/", ⟨[.item ⟨"session", .cookie, false, some (.reference "#/nowhere")⟩], [
    ⟨.get, none, [], none, [("default", .item ⟨none, [], some (.reference "#/nowhere")⟩)]⟩]⟩)]
  components := { Components.empty with
    schemas := [("Spare", .keywords { Keywords.bare with types := some (.one "file") })] }
  definitions := []

theorem spare_build_ok_iff :
    (∃ model, build spareDocument (Settings.standard "spare") [] = .ok model) ∧
      spareDocument.Resolves ∧ ∀ schema, spareDocument.Uses (Settings.standard "spare") schema →
        ∀ other, spareDocument.Visits schema other → spareDocument.Sound other := by
  have built : ∃ model, build spareDocument (Settings.standard "spare") [] = .ok model := ⟨_, rfl⟩
  exact ⟨built, (build_ok_iff spareDocument (Settings.standard "spare") []).mp built⟩

end ClientModel

end TypedClient.OpenApi
