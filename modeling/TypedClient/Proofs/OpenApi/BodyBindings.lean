import TypedClient.Proofs.OpenApi.OperationNames
import TypedClient.Proofs.OpenApi.SpreadBody

/-! The names under which a flat argument is taken apart.

A parameter is bound to an identifier that is made of its name, and different names can make the same
identifier. Entries of the pattern are dropped when they repeat a name, not when they repeat
an identifier, so a declaration is legal as long as names with one identifier are one name.
-/

set_option autoImplicit false

namespace TypedClient.Script

def Destructuring.names (declaration : Destructuring) : List String :=
  declaration.taken.map (·.2) ++ [declaration.rest]

theorem Destructuring.legal_iff {declaration : Destructuring} :
    declaration.Legal ↔ declaration.names.Nodup := Iff.rfl

end TypedClient.Script

namespace TypedClient.OpenApi

open FetchClient
open Script

theorem nodup_eraseDups {α : Type} [BEq α] [LawfulBEq α] (items : List α) :
    items.eraseDups.Nodup := by
  match items with
  | [] => exact List.nodup_nil
  | item :: rest =>
    rw [List.eraseDups_cons, List.nodup_cons, List.mem_eraseDups]
    have removed : item ∉ rest.filter fun other => !other == item := by simp
    exact ⟨removed, nodup_eraseDups (rest.filter fun other => !other == item)⟩
termination_by items.length
decreasing_by exact Nat.lt_succ_of_le (List.length_filter_le _ _)

section Operation
variable {dialect : Dialect} {model : OperationModel}

/-- Names that callers know a parameter by make different identifiers. -/
def Operation.KeepsNamesApart (operation : Operation) : Prop :=
  ∀ first ∈ operation.callerNames, ∀ second ∈ operation.callerNames,
    Text.toIdentifier first = Text.toIdentifier second → first = second

theorem taken_spreadDeclaration : (spreadDeclaration dialect model).taken =
    model.operation.callerNames.eraseDups.map fun name => (name, "_" ++ Text.toIdentifier name) := by
  simp [spreadDeclaration, parameterBindings, Operation.callerNames, Function.comp_def]

theorem nodup_parameterBindings_iff : ((parameterBindings model.operation).map (·.name)).Nodup ↔
    model.operation.KeepsNamesApart := by
  have names : (parameterBindings model.operation).map (·.name) =
      model.operation.callerNames.eraseDups.map fun name => "_" ++ Text.toIdentifier name := by
    simp [parameterBindings, Operation.callerNames, Function.comp_def]
  rw [names, List.nodup_map_iff_inj_on (nodup_eraseDups _)]
  simp only [List.mem_eraseDups, String.append_right_inj, Operation.KeepsNamesApart]

theorem legal_spreadDeclaration_iff :
    (spreadDeclaration dialect model).Legal ↔ model.operation.KeepsNamesApart := by
  refine ⟨fun legal => ?_, fun apart => legal_spreadDeclaration (nodup_parameterBindings_iff.mpr apart)⟩
  rw [Destructuring.legal_iff, Destructuring.names] at legal
  have bindings := List.Nodup.of_append_left legal
  rw [spreadDeclaration, List.map_map] at bindings
  exact nodup_parameterBindings_iff.mp bindings

/-- What the function of an operation binds at its outermost level, the pattern apart. -/
def otherLocals : List String :=
  ["url", "request", "headers", "searchParams", "query", "response", "responseBody"]

/-- All names of the pattern but the last begin with an underscore. -/
theorem disjoint_names_spreadDeclaration :
    ∀ name ∈ (spreadDeclaration dialect model).names, name ∉ otherLocals := by
  have plain : ∀ name ∈ otherLocals, ¬['_'] <+: name.toList := by decide
  intro name member known
  rw [Destructuring.names, taken_spreadDeclaration, List.map_map, List.mem_append] at member
  rcases member with taken | rest
  · obtain ⟨parameter, -, same⟩ := List.mem_map.mp taken
    exact privateName_ne name (plain name known) (Text.toIdentifier parameter) same
  · obtain rfl : name = "body" := List.mem_singleton.mp rest
    exact absurd known (by decide)

/-- The names of the pattern and the other locals are all that the function binds, but for the
variable of its loops. -/
theorem operationBound_cases_of_spread {body : BodyShape}
    (given : model.request.body = some body) (spread : body.spread = true) :
    ∀ name ∈ operationBound model,
      name ∈ otherLocals ∨ name = "value" ∨ name ∈ (spreadDeclaration dialect model).names := by
  have taken : (spreadDeclaration dialect model).names = takenNames model body := by
    simp [Destructuring.names, spreadDeclaration, takenNames, spread, Function.comp_def]
  have fixed (names : List String) (known : names ⊆ otherLocals) : ∀ name ∈ names,
      name ∈ otherLocals ∨ name = "value" ∨ name ∈ takenNames model body :=
    fun name member => .inl (known member)
  rw [taken, operationBound, operationLocals, given]
  simp only [List.forall_mem_append]
  refine ⟨fixed _ (by decide), fixed _ (by decide), ?query, fun name member => .inr (.inr member),
    fixed _ (by decide)⟩
  case query =>
    split
    case isTrue => exact List.forall_mem_nil _
    case isFalse =>
      simp only [List.forall_mem_append]
      refine ⟨fixed _ (by decide), fun name member => ?_, fixed _ (by decide)⟩
      obtain ⟨_, -, inside⟩ := List.mem_flatMap.mp member
      exact .inr (.inl (List.mem_singleton.mp inside))

end Operation

section Model
variable {document : Document} {settings : Settings} {reserved : List String} {model : ClientModel}
  {operation : OperationModel} {body : BodyShape}

/-- The statement for a spread body binds the parameters, one for each name, and the body. It binds
nothing twice if and only if different names of parameters make different identifiers. -/
theorem spread_binds_once_iff (built : ClientModel.build document settings reserved = .ok model)
    (member : operation ∈ model.operations) (given : operation.request.body = some body)
    (spread : body.spread = true) :
    spreadBodyLine (Dialect.ofSettings settings) operation ∈
        operationBody (Dialect.ofSettings settings) operation ∧
      ∃ tokens declaration,
        Item.tokensOf? [spreadBodyLine (Dialect.ofSettings settings) operation] = some tokens ∧
        destructuring? tokens = some declaration ∧
        declaration.taken = operation.operation.callerNames.eraseDups.map
          (fun name => (name, "_" ++ Text.toIdentifier name)) ∧
        declaration.rest = "body" ∧
        (declaration.names.Nodup ↔ operation.operation.KeepsNamesApart) ∧
        (∀ name ∈ declaration.names, name ∉ otherLocals) ∧
        ∀ name ∈ operationBound operation,
          name ∈ otherLocals ∨ name = "value" ∨ name ∈ declaration.names := by
  have named := (regular_of_build built operation member).named
  exact ⟨mem_operationBody given spread, _, _,
    tokensOf?_spreadBodyLine (Dialect.ofSettings settings) operation named.request,
    destructuring?_spreadTokens, taken_spreadDeclaration, rfl, legal_spreadDeclaration_iff,
    disjoint_names_spreadDeclaration, operationBound_cases_of_spread given spread⟩

/-- The shelf's operation has two parameters of one name, and that name is bound once. -/
theorem shelf_binds_once : ∃ model operation body tokens declaration,
    ClientModel.build shelfDocument (flatSettings "shelf") FetchClient.reservedIds = .ok model ∧
    operation ∈ model.operations ∧ operation.request.body = some body ∧ body.spread = true ∧
    Item.tokensOf? [spreadBodyLine (Dialect.ofSettings (flatSettings "shelf")) operation] =
      some tokens ∧
    destructuring? tokens = some declaration ∧ declaration.names = ["_id", "body"] ∧
    declaration.names.Nodup ∧ operation.operation.callerNames = ["id", "id"] := by
  obtain ⟨model, operation, body, built, member, given, spread, names⟩ : ∃ model operation body,
      ClientModel.build shelfDocument (flatSettings "shelf") FetchClient.reservedIds = .ok model ∧
      operation ∈ model.operations ∧ operation.request.body = some body ∧ body.spread = true ∧
      operation.operation.callerNames = ["id", "id"] :=
    ⟨_, _, _, rfl, List.mem_cons_self, rfl, rfl, rfl⟩
  obtain ⟨-, tokens, declaration, found, read, taken, rest, once, -, -⟩ :=
    spread_binds_once_iff built member given spread
  have apart : operation.operation.KeepsNamesApart := by
    intro first one second two _
    rw [names] at one two
    simp only [List.mem_cons, List.not_mem_nil, or_false, or_self] at one two
    rw [one, two]
  refine ⟨model, operation, body, tokens, declaration, built, member, given, spread, found, read,
    ?_, once.mpr apart, names⟩
  rw [Destructuring.names, taken, rest, names]
  decide +kernel

def trackDocument : Document where
  paths := [("/tracks", ⟨[],
    [⟨.post, some "addTrack",
      [.item ⟨"user-id", .header, true, none⟩, .item ⟨"userId", .query, false, none⟩],
      some (.item ⟨true, [("application/json", some (.reference "#/components/schemas/Shelf"))]⟩),
      []⟩]⟩)]
  components := shelfDocument.components
  definitions := []

theorem track_binds_twice : ∃ model operation body tokens declaration,
    ClientModel.build trackDocument (flatSettings "tracks") FetchClient.reservedIds = .ok model ∧
    operation ∈ model.operations ∧ operation.request.body = some body ∧ body.spread = true ∧
    spreadBodyLine (Dialect.ofSettings (flatSettings "tracks")) operation ∈
      operationBody (Dialect.ofSettings (flatSettings "tracks")) operation ∧
    Item.tokensOf? [spreadBodyLine (Dialect.ofSettings (flatSettings "tracks")) operation] =
      some tokens ∧
    destructuring? tokens = some declaration ∧
    declaration.names = ["_userId", "_userId", "body"] ∧ ¬declaration.names.Nodup := by
  obtain ⟨model, operation, body, built, member, given, spread, names⟩ : ∃ model operation body,
      ClientModel.build trackDocument (flatSettings "tracks") FetchClient.reservedIds = .ok model ∧
      operation ∈ model.operations ∧ operation.request.body = some body ∧ body.spread = true ∧
      (spreadDeclaration (Dialect.ofSettings (flatSettings "tracks")) operation).names =
        ["_userId", "_userId", "body"] :=
    ⟨_, _, _, rfl, List.mem_cons_self, rfl, rfl, by decide +kernel⟩
  have named := (regular_of_build built operation member).named
  refine ⟨model, operation, body, _, _, built, member, given, spread,
    mem_operationBody given spread, tokensOf?_spreadBodyLine _ operation named.request,
    destructuring?_spreadTokens, names, ?_⟩
  rw [names]
  decide

end Model

end TypedClient.OpenApi
