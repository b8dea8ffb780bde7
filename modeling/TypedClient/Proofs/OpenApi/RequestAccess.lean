import TypedClient.Proofs.OpenApi.Buildable
import TypedClient.Proofs.OpenApi.ClientSurface

/-! What the functions of a fetch client read of their argument.

The type of an argument and the code that reads it are made from the same parameters, by different
tables. Everything that is read is a member of the type: a parameter is found under its name, in the
group of its location if there are groups.
-/

set_option autoImplicit false

namespace TypedClient.TypeScript

mutual

/-- The first member of an object type with the name. In an intersection the parts are asked in
order. -/
def TypeExpr.property? (name : String) : TypeExpr → Option Field
  | .object fields => fields.find? (·.name == name)
  | .intersection members => TypeExpr.propertyIn? name members
  | _ => none

def TypeExpr.propertyIn? (name : String) : List TypeExpr → Option Field
  | [] => none
  | type :: rest => type.property? name <|> TypeExpr.propertyIn? name rest

end

def TypeExpr.at? (type : TypeExpr) : List String → Option Field
  | [] => none
  | [name] => type.property? name
  | name :: rest => do
    let field ← type.property? name
    field.type.at? rest

end TypedClient.TypeScript

namespace TypedClient.OpenApi

open FetchClient
open Script
open TypeScript (Field TypeExpr)

section Grouped
variable {settings : Settings} {operation : Operation} {parameter : Parameter}

theorem find?_parameterShapes (parameters : List Parameter) (name : String) :
    (parameters.map (parameterShape settings)).find? (·.name == name) =
      (parameters.find? (·.name == name)).map (parameterShape settings) := by
  rw [List.find?_map]
  rfl

/-- The first parameter of a name is one of that name. -/
theorem exists_find?_name {parameters : List Parameter} (member : parameter ∈ parameters) :
    ∃ other ∈ parameters, other.name = parameter.name ∧
      parameters.find? (·.name == parameter.name) = some other := by
  cases found : parameters.find? (·.name == parameter.name) with
  | none =>
    have none := List.find?_eq_none.mp found parameter member
    simp at none
  | some other =>
    exact ⟨other, List.mem_of_find?_eq_some found, by simpa using List.find?_some found, rfl⟩

theorem groupShape_name {group : Location × String} {field : Field}
    (found : groupShape settings operation group = some field) : field.name = group.2 := by
  unfold groupShape at found
  simp only at found
  split at found
  · cases found
  · cases found
    rfl

/-- Groups with different names are each found under their own. -/
theorem find?_groupShapes {all : List (Location × String)} (distinct : (all.map (·.2)).Nodup)
    {group : Location × String} (listed : group ∈ all) {field : Field}
    (found : groupShape settings operation group = some field) :
    (all.filterMap (groupShape settings operation)).find? (·.name == group.2) = some field := by
  induction all with
  | nil => cases listed
  | cons first rest ih =>
    rw [List.map_cons, List.nodup_cons] at distinct
    rcases List.mem_cons.mp listed with rfl | inside
    · rw [List.filterMap_cons_some found, List.find?_cons_of_pos]
      simp [groupShape_name found]
    · have different : first.2 ≠ group.2 :=
        fun same => distinct.1 (same ▸ List.mem_map_of_mem inside)
      cases shape : groupShape settings operation first with
      | none =>
        rw [List.filterMap_cons_none shape]
        exact ih distinct.2 inside
      | some other =>
        rw [List.filterMap_cons_some shape, List.find?_cons_of_neg]
        · exact ih distinct.2 inside
        · simpa [groupShape_name shape] using different

/-- The group of a location that has parameters holds all of them. -/
theorem property?_group (settings : Settings) (body : Option BodyShape)
    (caller : parameter.location ≠ .cookie) (member : parameter ∈ operation.parameters) :
    ∃ optional, (groupedShape settings operation body).type.property? (groupName parameter.location) =
      some ⟨groupName parameter.location,
        .object ((operation.parametersIn parameter.location).map (parameterShape settings)), optional⟩ := by
  have inside : parameter ∈ operation.parametersIn parameter.location :=
    List.mem_filter.mpr ⟨member, by simp⟩
  have shape : groupShape settings operation (parameter.location, groupName parameter.location) =
      some ⟨groupName parameter.location,
        .object ((operation.parametersIn parameter.location).map (parameterShape settings)),
        ((operation.parametersIn parameter.location).map (parameterShape settings)).all (·.optional)⟩ := by
    have some_ : ((operation.parametersIn parameter.location).map (parameterShape settings)).isEmpty =
        false := by
      rw [List.isEmpty_eq_false_iff_exists_mem]
      exact ⟨_, List.mem_map_of_mem inside⟩
    unfold groupShape
    simp only [some_, Bool.false_eq_true, if_false]
  have listed : (parameter.location, groupName parameter.location) ∈ groups := by
    cases place : parameter.location with
    | cookie => exact absurd place caller
    | _ => decide
  have found := find?_groupShapes (by decide) listed shape
  refine ⟨((operation.parametersIn parameter.location).map (parameterShape settings)).all
    (·.optional), ?_⟩
  unfold groupedShape TypeExpr.property?
  rw [List.filterMap_map, Function.id_comp, List.find?_append, found]
  rfl

/-- In groups a parameter is found as one of its name and location. -/
theorem at?_grouped (body : Option BodyShape) (caller : parameter.location ≠ .cookie)
    (member : parameter ∈ operation.parameters) :
    ∃ other ∈ operation.parameters, other.name = parameter.name ∧
      other.location = parameter.location ∧
      (groupedShape settings operation body).type.at?
        (parameterAccess true parameter.location parameter.name).members =
          some (parameterShape settings other) := by
  have inside : parameter ∈ operation.parametersIn parameter.location :=
    List.mem_filter.mpr ⟨member, by simp⟩
  obtain ⟨other, listed, named, first⟩ := exists_find?_name inside
  obtain ⟨optional, group⟩ := property?_group settings body caller member
  refine ⟨other, List.mem_of_mem_filter listed, named, ?_, ?_⟩
  · simpa using (List.mem_filter.mp listed).2
  · have found : ((operation.parametersIn parameter.location).map (parameterShape settings)).find?
        (·.name == parameter.name) = some (parameterShape settings other) := by
      rw [find?_parameterShapes, first]
      rfl
    simp [parameterAccess, TypeExpr.at?, group, TypeExpr.property?, found]

end Grouped

section Flat
variable {settings : Settings} {operation : Operation} {parameter : Parameter}

/-- Flat arguments hold a parameter of each name. -/
theorem find?_flatParameters (caller : parameter.location ≠ .cookie)
    (member : parameter ∈ operation.parameters) :
    ∃ other ∈ operation.parameters, other.name = parameter.name ∧
      operation.flatParameters.find? (·.name == parameter.name) = some other := by
  have listed := mem_callerParameters_iff.mpr ⟨member, caller⟩
  obtain ⟨first, _, named, found⟩ := exists_find?_name listed
  have flat : first ∈ operation.flatParameters :=
    mem_flatParameters_iff.mpr (named.symm ▸ found)
  obtain ⟨other, kept, namedToo, foundToo⟩ := exists_find?_name flat
  have inside := mem_callerParameters_iff.mp
    (List.mem_of_find?_eq_some (mem_flatParameters_iff.mp kept))
  exact ⟨other, inside.1, namedToo.trans named, named ▸ foundToo⟩

theorem at?_flat (body : Option BodyShape) (caller : parameter.location ≠ .cookie)
    (member : parameter ∈ operation.parameters) :
    ∃ other ∈ operation.parameters, other.name = parameter.name ∧
      (flatShape settings operation body).type.at?
        (parameterAccess false parameter.location parameter.name).members =
          some (parameterShape settings other) := by
  obtain ⟨other, listed, named, first⟩ := find?_flatParameters caller member
  have found : (operation.flatParameters.map (parameterShape settings)).find?
      (·.name == parameter.name) = some (parameterShape settings other) := by
    rw [find?_parameterShapes, first]
    rfl
  have nonempty : (operation.flatParameters.map (parameterShape settings)).isEmpty = false := by
    rw [List.isEmpty_eq_false_iff_exists_mem]
    exact ⟨_, List.mem_of_find?_eq_some found⟩
  refine ⟨other, listed, named, ?_⟩
  unfold flatShape
  cases body with
  | none => simpa [parameterAccess, TypeExpr.at?, TypeExpr.property?] using found
  | some shape =>
    cases spread : shape.spread with
    | true => simp [parameterAccess, TypeExpr.at?, TypeExpr.property?, TypeExpr.propertyIn?, nonempty,
        spread, found]
    | false => simp [parameterAccess, TypeExpr.at?, TypeExpr.property?, spread, found]

end Flat

section Reads
variable {settings : Settings} {objectLike : TypeExpr → Bool} {operation : Operation}
  {parameter : Parameter}

/-- The access to a parameter finds a member that is made of a parameter of its name, and of its
location if there are groups. -/
def FindsParameter (settings : Settings) (model : OperationModel) (parameter : Parameter) : Prop :=
  ∃ other ∈ model.operation.parameters, other.name = parameter.name ∧
    (settings.fullRequest = true → other.location = parameter.location) ∧
    model.request.type.at?
      (parameterAccess settings.fullRequest parameter.location parameter.name).members =
        some (parameterShape settings other)

/-- What a function reads of its argument is declared by the argument's type. -/
structure ReadsDeclared (settings : Settings) (model : OperationModel) (reads : List (List String)) :
    Prop where
  header : ∀ parameter ∈ model.operation.parametersIn .header,
    (parameterAccess settings.fullRequest .header parameter.name).members ∈ reads ∧
      FindsParameter settings model parameter
  query : ∀ parameter ∈ model.operation.parametersIn .query,
    (parameterAccess settings.fullRequest .query parameter.name).members ∈ reads ∧
      FindsParameter settings model parameter
  /-- A parameter of the path is read where the url has a hole for it. -/
  path : ∀ parameter ∈ model.operation.parametersIn .path,
    parameter.name ∈ placeholders (urlParts model.operation.path false) →
      (parameterAccess settings.fullRequest .path parameter.name).members ∈ reads ∧
        FindsParameter settings model parameter
  body : ∀ body, model.request.body = some body → body.spread = false →
    bodyAccess.members ∈ reads ∧ ∃ field, model.request.type.at? bodyAccess.members = some field
  /-- Besides, a spread body is taken out of the whole argument, and the url may have holes for
  parameters that are not declared. -/
  only : ∀ access ∈ reads, (∃ field, model.request.type.at? access = some field) ∨
    (access = [] ∧ ∃ body, model.request.body = some body ∧ body.spread = true) ∨
    ∃ name ∈ placeholders (urlParts model.operation.path false),
      (∀ parameter ∈ model.operation.parametersIn .path, parameter.name ≠ name) ∧
        access = (parameterAccess settings.fullRequest .path name).members

theorem placeholders_urlParts (path : String) (withQuery : Bool) :
    placeholders (urlParts path withQuery) = placeholders (urlParts path false) := by
  unfold urlParts placeholders
  cases withQuery with
  | false => rfl
  | true => simp

theorem finds_requestGiven (objectLike : TypeExpr → Bool) (caller : parameter.location ≠ .cookie)
    (member : parameter ∈ operation.parameters) :
    FindsParameter settings (modelGiven settings operation objectLike) parameter := by
  unfold FindsParameter modelGiven requestGiven
  cases full : settings.fullRequest with
  | true =>
    obtain ⟨other, listed, named, located, found⟩ :=
      @at?_grouped settings _ _ (bodyGiven settings objectLike operation) caller member
    exact ⟨other, listed, named, fun _ => located, found⟩
  | false =>
    obtain ⟨other, listed, named, found⟩ :=
      @at?_flat settings _ _ (bodyGiven settings objectLike operation) caller member
    exact ⟨other, listed, named, nofun, found⟩

theorem exists_property? {fields : List Field} {field : Field} (member : field ∈ fields) :
    ∃ first, (TypeExpr.object fields).property? field.name = some first := by
  unfold TypeExpr.property?
  apply Option.isSome_iff_exists.mp
  rw [List.find?_isSome]
  exact ⟨field, member, by simp⟩

theorem at?_body {body : BodyShape} (given : bodyGiven settings objectLike operation = some body)
    (single : body.spread = false) :
    ∃ field, (requestGiven settings objectLike operation).type.at? bodyAccess.members =
      some field := by
  change ∃ field, (requestGiven settings objectLike operation).type.property? (bodyField body).name =
    some field
  unfold requestGiven
  rw [given]
  split
  · unfold groupedShape
    exact exists_property? (List.mem_append_right _ List.mem_cons_self)
  · unfold flatShape
    simp only [single, Bool.false_eq_true, if_false]
    exact exists_property? (List.mem_append_right _ List.mem_cons_self)

theorem mem_parametersIn {location : Location} (member : parameter ∈ operation.parametersIn location) :
    parameter ∈ operation.parameters ∧ parameter.location = location := by
  simpa using List.mem_filter.mp member

theorem mem_parameterReads (fullRequest : Bool) (location : Location) (parameter : Parameter) :
    (parameterAccess fullRequest location parameter.name).members ∈
      parameterReads fullRequest location parameter :=
  List.mem_replicate.mpr ⟨by decide, rfl⟩

theorem at?_parameter (objectLike : TypeExpr → Bool) {location : Location}
    (caller : location ≠ .cookie) (member : parameter ∈ operation.parametersIn location) :
    ∃ field, (requestGiven settings objectLike operation).type.at?
      (parameterAccess settings.fullRequest location parameter.name).members = some field := by
  obtain ⟨inside, rfl⟩ := mem_parametersIn member
  obtain ⟨other, _, _, _, found⟩ := @finds_requestGiven settings _ _ objectLike caller inside
  exact ⟨_, found⟩

theorem at?_parameterReads (objectLike : TypeExpr → Bool) {location : Location}
    (caller : location ≠ .cookie) {access : List String}
    (member : access ∈ (operation.parametersIn location).flatMap
      (parameterReads settings.fullRequest location)) :
    ∃ field, (requestGiven settings objectLike operation).type.at? access = some field := by
  obtain ⟨parameter, listed, inside⟩ := List.mem_flatMap.mp member
  obtain ⟨_, rfl⟩ := List.mem_replicate.mp inside
  exact at?_parameter objectLike caller listed

/-- A body is a member of the argument, or else the whole of it is taken. -/
theorem at?_bodyReads (objectLike : TypeExpr → Bool) {access : List String}
    (member : access ∈ bodyReads (requestGiven settings objectLike operation)) :
    (∃ field, (requestGiven settings objectLike operation).type.at? access = some field) ∨
      (access = [] ∧ ∃ body, (requestGiven settings objectLike operation).body = some body ∧
        body.spread = true) := by
  unfold bodyReads at member
  cases given : (requestGiven settings objectLike operation).body with
  | none =>
    rw [given] at member
    cases member
  | some body =>
    rw [given] at member
    cases spread : body.spread with
    | true =>
      simp only [spread, if_true, List.mem_singleton] at member
      exact .inr ⟨member, body, rfl, spread⟩
    | false =>
      simp only [spread, Bool.false_eq_true, if_false, List.mem_singleton] at member
      rw [requestGiven_body] at given
      rw [member]
      exact .inl (at?_body given spread)

theorem readsDeclared_modelGiven (settings : Settings) (operation : Operation)
    (objectLike : TypeExpr → Bool) :
    ReadsDeclared settings (modelGiven settings operation objectLike)
      (operationReads settings.fullRequest operation (requestGiven settings objectLike operation)) := by
  have finds : ∀ location, location ≠ .cookie → ∀ parameter ∈ operation.parametersIn location,
      FindsParameter settings (modelGiven settings operation objectLike) parameter := by
    intro location caller parameter member
    obtain ⟨inside, rfl⟩ := mem_parametersIn member
    exact finds_requestGiven objectLike caller inside
  unfold operationReads
  simp only [placeholders_urlParts operation.path (!(operation.parametersIn .query).isEmpty)]
  constructor
  case header =>
    intro parameter member
    refine ⟨?_, finds .header (by decide) parameter member⟩
    simp only [List.mem_append, List.mem_flatMap]
    exact .inl (.inl (.inl ⟨parameter, member, mem_parameterReads _ _ parameter⟩))
  case query =>
    intro parameter member
    refine ⟨?_, finds .query (by decide) parameter member⟩
    simp only [List.mem_append, List.mem_flatMap]
    exact .inl (.inl (.inr ⟨parameter, member, mem_parameterReads _ _ parameter⟩))
  case path =>
    intro parameter member hole
    refine ⟨List.mem_append_right _ ?_, finds .path (by decide) parameter member⟩
    exact List.mem_map.mpr ⟨parameter.name, hole, rfl⟩
  case body =>
    intro body given single
    have same : bodyGiven settings objectLike operation = some body :=
      requestGiven_body.symm.trans given
    refine ⟨List.mem_append_left _ (List.mem_append_right _ ?_), at?_body same single⟩
    unfold bodyReads
    rw [requestGiven_body, same]
    simp [single]
  case only =>
    intro access member
    simp only [List.mem_append, or_assoc] at member
    rcases member with header | query | body | hole
    · exact .inl (at?_parameterReads objectLike (by decide) header)
    · exact .inl (at?_parameterReads objectLike (by decide) query)
    · exact (at?_bodyReads objectLike body).imp_right .inl
    · -- A hole is for a declared parameter or for none.
      obtain ⟨name, listed, rfl⟩ := List.mem_map.mp hole
      by_cases known : ∃ parameter ∈ operation.parametersIn .path, parameter.name = name
      · obtain ⟨parameter, member, rfl⟩ := known
        exact .inl (at?_parameter objectLike (by decide) member)
      · exact .inr (.inr ⟨name, listed, fun parameter member same => known ⟨parameter, member, same⟩, rfl⟩)

end Reads

section Model
variable {document : Document} {settings : Settings} {reserved : List String} {model : ClientModel}
  {operation : OperationModel}

/-- The function of an operation reads nothing of its argument that the type of the argument does
not declare, but for holes in the url that no parameter is declared for. -/
theorem reads_declared (built : ClientModel.build document settings reserved = .ok model)
    (member : operation ∈ model.operations) :
    ∃ header tokens, (operationStatement (Dialect.ofSettings settings) operation).items =
        [.blank, .block header (operationBody (Dialect.ofSettings settings) operation) ""] ∧
      Item.tokensOf? (operationBody (Dialect.ofSettings settings) operation) = some tokens ∧
      ReadsDeclared settings operation (accesses "request" tokens) := by
  have named := (regular_of_build built operation member).named
  obtain ⟨header, items, _⟩ := named.operationStatement_items (Dialect.ofSettings settings)
  have shows_ := shows_operationBody (Dialect.ofSettings settings) operation named.request
    named.responses
  obtain ⟨tokens, found, _, read⟩ := shows_iff.mp shows_
  refine ⟨header, tokens, items, found, ?_⟩
  obtain ⟨_, _, _, _, _, models, _⟩ := ClientModel.of_build built
  obtain ⟨given, _, registry, _, rfl⟩ := exists_left_of_forall₂ models member
  rw [read]
  exact readsDeclared_modelGiven settings given registry.isObjectLike

/-- A path, a query and a body have an `id`, and the url has a hole for no parameter. -/
def shelfDocument : Document where
  paths := [("/shelves/\x7bid\x7d/\x7bslot\x7d", ⟨[],
    [⟨.put, some "fill", [.item ⟨"id", .path, true, none⟩, .item ⟨"id", .query, false, none⟩],
      some (.item ⟨true, [("application/json", some (.reference "#/components/schemas/Shelf"))]⟩),
      []⟩]⟩)]
  components := { Components.empty with schemas := [
    ("Shelf", .keywords { Keywords.bare with
      types := some (.one "object")
      properties := some [("id", .keywords { Keywords.bare with types := some (.one "string") }),
        ("label", .keywords { Keywords.bare with types := some (.one "string") })] })] }
  definitions := []

def flatSettings (name : String) : Settings :=
  { Settings.standard name with isFrontend := true, fullRequest := false }

theorem shelf_reads_declared :
    ∃ model operation,
      ClientModel.build shelfDocument (flatSettings "shelf") FetchClient.reservedIds = .ok model ∧
      operation ∈ model.operations ∧
      ∃ tokens, Item.tokensOf? (operationBody (Dialect.ofSettings (flatSettings "shelf")) operation) =
          some tokens ∧
        accesses "request" tokens = [["id"], ["id"], [], ["id"], ["slot"]] ∧
        ReadsDeclared (flatSettings "shelf") operation (accesses "request" tokens) := by
  obtain ⟨model, operation, built, member, read⟩ : ∃ model operation,
      ClientModel.build shelfDocument (flatSettings "shelf") FetchClient.reservedIds = .ok model ∧
      operation ∈ model.operations ∧ (Item.tokensOf? (operationBody
        (Dialect.ofSettings (flatSettings "shelf")) operation)).map (accesses "request") =
          some [["id"], ["id"], [], ["id"], ["slot"]] :=
    ⟨_, _, rfl, List.mem_cons_self, by decide +kernel⟩
  obtain ⟨_, tokens, _, found, declared⟩ := reads_declared built member
  rw [found, Option.map_some, Option.some.injEq] at read
  exact ⟨model, operation, built, member, tokens, found, read, declared⟩

end Model

end TypedClient.OpenApi
