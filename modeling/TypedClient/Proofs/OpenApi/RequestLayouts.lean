import TypedClient.Proofs.OpenApi.RequestAccess

/-! The two layouts of an argument: what callers must supply, and under which names.

Both are told by the names of the parameters and by which of them may be left out; no registry has a
say. In groups there is room for every parameter. Flat arguments hold the first one of each name, so
one that must be supplied can be lost behind one that need not be, and a body that is not spread
takes a name that a parameter may have as well.
-/

set_option autoImplicit false

namespace TypedClient.OpenApi

open TypeScript (Field TypeExpr)

namespace Mapping
variable {α β γ : Type}

def Yields (mapping : Mapping α) (kind : α → Prop) : Prop :=
  ∀ registry value, (mapping.outcome registry).1 = .ok value → kind value

namespace Yields

theorem done {value : α} {kind : α → Prop} (holds : kind value) :
    Yields (pure value : Mapping α) kind := by
  intro registry other given
  cases given
  exact holds

theorem any (mapping : Mapping α) : mapping.Yields fun _ => True := fun _ _ _ => trivial

theorem bind {mapping : Mapping α} {next : α → Mapping β} {before : α → Prop} {kind : β → Prop}
    (yields : mapping.Yields before) (after : ∀ value, before value → (next value).Yields kind) :
    Yields (mapping >>= next) kind := by
  intro registry value given
  rw [MappingOn.outcome_bind] at given
  rcases found : mapping.outcome registry with ⟨fault | middle, left⟩
  · rw [found] at given
    cases given
  · rw [found] at given
    exact after middle (yields registry middle (by rw [found])) left value given

theorem mapM {f : γ → Mapping α} {kind : γ → α → Prop} {items : List γ}
    (each : ∀ item ∈ items, (f item).Yields (kind item)) :
    Yields (items.mapM f) (List.Forall₂ kind items) := by
  induction items with
  | nil => exact done .nil
  | cons item rest ih =>
    have tail := ih fun other member => each other (List.mem_cons_of_mem item member)
    rw [List.mapM_cons]
    refine (each item List.mem_cons_self).bind fun value holds => ?_
    exact tail.bind fun values others => done (.cons holds others)

end Yields

end Mapping

section Fields
variable {document : Document} {settings : Settings} {operation : Operation}
  {parameters : List Parameter} {fields : List Field}

structure FieldOf (settings : Settings) (parameter : Parameter) (field : Field) : Prop where
  name : parameter.name = field.name
  optional : parameterOptional settings parameter = field.optional

theorem parameterField_yields (parameter : Parameter) :
    (parameterField document settings parameter).Yields (FieldOf settings parameter) :=
  (Mapping.Yields.any _).bind fun _ _ => .done ⟨rfl, rfl⟩

theorem parameterFields_yield (parameters : List Parameter) :
    (parameters.mapM (parameterField document settings)).Yields
      (List.Forall₂ (FieldOf settings) parameters) :=
  .mapM fun parameter _ => parameterField_yields parameter

theorem names_of_fields (each : List.Forall₂ (FieldOf settings) parameters fields) :
    parameters.map (·.name) = fields.map (·.name) :=
  map_eq_map_of_forall₂ (each.imp fun _ _ made => made.name)

theorem any_of_fields (each : List.Forall₂ (FieldOf settings) parameters fields) :
    parameters.any (!parameterOptional settings ·) = fields.any (!·.optional) :=
  any_eq_any_of_forall₂ (each.imp fun _ _ made => congrArg not made.optional)

/-- Callers must send a body, one that has a media type. -/
def Operation.requiresBody (operation : Operation) : Bool :=
  operation.requestBody.any fun body => !body.content.isEmpty && body.required

theorem bodyShape_yields :
    (bodyShape document settings operation).Yields
      fun body => body.any (·.required) = operation.requiresBody := by
  unfold bodyShape Operation.requiresBody
  rcases operation.requestBody with _ | ⟨required, _ | ⟨⟨mediaType, schema⟩, rest⟩⟩
  · exact .done rfl
  · exact .done rfl
  · simp only
    split
    case isTrue multipart => exact .done rfl
    case isFalse single =>
      refine (Mapping.Yields.any _).bind fun type _ => ?_
      exact (Mapping.Yields.any _).bind fun registry _ => .done rfl

end Fields

section Required
variable {document : Document} {settings : Settings} {operation : Operation} {shape other : RequestShape}
  {registry later : Registry} {parameter : Parameter}

theorem groupField_yields (group : Location × String) :
    (groupField document settings operation group).Yields fun field =>
      (operation.parametersIn group.1).any (!parameterOptional settings ·) =
        field.any (!·.optional) := by
  refine (parameterFields_yield _).bind fun fields each => ?_
  rw [any_of_fields each]
  cases fields with
  | nil => exact .done rfl
  | cons field rest => exact .done (List.not_all_eq_any_not).symm

theorem groupedRequest_yields (body : Option BodyShape) :
    (groupedRequest document settings operation body).Yields fun shape =>
      shape.required = (operation.callerParameters.any (!parameterOptional settings ·) ||
        body.any (·.required)) := by
  refine (Mapping.Yields.mapM fun group _ => groupField_yields group).bind fun grouped each => ?_
  refine .done ?_
  -- A location without parameters has no group, and asks for nothing.
  have present : (grouped.filterMap id).any (!·.optional) = grouped.any (·.any (!·.optional)) := by
    rw [List.any_filterMap]
    congr 1
  have own : (body.map bodyField).toList.any (!·.optional) = body.any (·.required) := by
    cases body <;> simp [bodyField]
  rw [Operation.callerParameters, List.any_flatMap, any_eq_any_of_forall₂ each, List.any_append,
    present, own]

theorem flatRequest_yields (body : Option BodyShape) :
    (flatRequest document settings operation body).Yields fun shape =>
      shape.required = (operation.flatParameters.any (!parameterOptional settings ·) ||
        body.any (·.required)) := by
  refine (parameterFields_yield _).bind fun fields each => ?_
  rw [any_of_fields each]
  cases body with
  | none => exact .done (Bool.or_false _).symm
  | some body => exact .done rfl

theorem requestShape_yields :
    (requestShape document settings operation).Yields fun shape =>
      shape.required = ((operation.mappedParameters settings).any (!parameterOptional settings ·) ||
        operation.requiresBody) := by
  refine bodyShape_yields.bind fun body required => ?_
  rw [← required]
  unfold Operation.mappedParameters
  split
  · exact groupedRequest_yields body
  · exact flatRequest_yields body

def Operation.Requires (settings : Settings) (operation : Operation) : Prop :=
  (∃ parameter, operation.Renders settings parameter ∧
      parameterOptional settings parameter = false) ∨
    ∃ body, operation.requestBody = some body ∧ body.content ≠ [] ∧ body.required = true

/-- All that callers must supply are parameters, and each stands behind one of its name that need not
be supplied. -/
structure Operation.HidesRequired (settings : Settings) (operation : Operation) : Prop where
  required : ∃ parameter ∈ operation.callerParameters, parameterOptional settings parameter = false
  behind : ∀ parameter ∈ operation.callerParameters, parameterOptional settings parameter = false →
    ∃ first, operation.callerParameters.find? (·.name == parameter.name) = some first ∧
      parameterOptional settings first = true
  bodiless : ∀ body, operation.requestBody = some body → body.content ≠ [] → body.required = false

theorem requiresBody_iff : operation.requiresBody = true ↔
    ∃ body, operation.requestBody = some body ∧ body.content ≠ [] ∧ body.required = true := by
  unfold Operation.requiresBody
  simp [Option.any_eq_true]

theorem requires_iff : operation.Requires settings ↔
    ((operation.mappedParameters settings).any (!parameterOptional settings ·) ||
      operation.requiresBody) = true := by
  unfold Operation.Requires
  simp [requiresBody_iff, mem_mappedParameters_iff]

/-- What must be supplied stands behind what need not be if no parameter that is kept is needed. -/
theorem behind_iff :
    (∀ parameter ∈ operation.callerParameters, parameterOptional settings parameter = false →
      ∃ first, operation.callerParameters.find? (·.name == parameter.name) = some first ∧
        parameterOptional settings first = true) ↔
    operation.flatParameters.any (!parameterOptional settings ·) = false := by
  simp only [List.any_eq_false, Bool.not_eq_true', Bool.not_eq_false, mem_flatParameters_iff]
  constructor
  · intro behind parameter kept
    by_contra needed
    obtain ⟨first, found, free⟩ := behind parameter (List.mem_of_find?_eq_some kept)
      (Bool.not_eq_true _ ▸ needed)
    rw [kept] at found
    cases found
    exact needed free
  · intro free parameter member _
    obtain ⟨first, _, named, found⟩ := exists_find?_name member
    exact ⟨first, found, free first (named ▸ found)⟩

theorem hidesRequired_iff : operation.HidesRequired settings ↔
    (operation.callerParameters.any (!parameterOptional settings ·) = true ∧
      operation.flatParameters.any (!parameterOptional settings ·) = false) ∧
      operation.requiresBody = false := by
  have bodiless : operation.requiresBody = false ↔
      ∀ body, operation.requestBody = some body → body.content ≠ [] → body.required = false := by
    rw [← Bool.not_eq_true, requiresBody_iff]
    simp
  rw [← behind_iff, bodiless]
  constructor
  · rintro ⟨required, behind, bodiless⟩
    exact ⟨⟨by simpa using required, behind⟩, bodiless⟩
  · rintro ⟨⟨required, behind⟩, bodiless⟩
    exact ⟨by simpa using required, behind, bodiless⟩

/-- Flat arguments hold none but the parameters that groups hold. -/
theorem any_callerParameters_of_flat {p : Parameter → Bool}
    (found : operation.flatParameters.any p = true) : operation.callerParameters.any p = true := by
  obtain ⟨parameter, kept, holds⟩ := List.any_eq_true.mp found
  have member := List.mem_of_find?_eq_some (mem_flatParameters_iff.mp kept)
  exact List.any_eq_true.mpr ⟨parameter, member, holds⟩

/-- One layout asks for something and the other does not. -/
theorem flags_ne_iff (body : Bool) {grouped flat : Bool} (fewer : flat = true → grouped = true) :
    ((grouped || body) ≠ (flat || body)) ↔ (grouped = true ∧ flat = false) ∧ body = false := by
  cases body <;> cases grouped <;> cases flat <;> simp_all

/-- Something must be supplied if the layout holds a parameter that must be, or the body must be sent.
The two layouts differ in this only when one of them hides all that must be supplied. -/
theorem required_iff
    (given : ((requestShape document settings operation).outcome registry).1 = .ok shape) :
    (shape.required = true ↔ operation.Requires settings) ∧
    ∀ later other, ((requestShape document { settings with fullRequest := !settings.fullRequest }
        operation).outcome later).1 = .ok other →
      (shape.required ≠ other.required ↔ operation.HidesRequired settings) := by
  have own := requestShape_yields registry shape given
  refine ⟨by rw [own, requires_iff], ?_⟩
  intro later other givenToo
  have others := requestShape_yields later other givenToo
  have optional : ∀ parameter, parameterOptional
      { settings with fullRequest := !settings.fullRequest } parameter =
        parameterOptional settings parameter := fun _ => rfl
  have differ := flags_ne_iff operation.requiresBody
    (@any_callerParameters_of_flat operation (!parameterOptional settings ·))
  rw [own, others, hidesRequired_iff, ← differ]
  simp only [Operation.mappedParameters, optional, Operation.callerParameters]
  cases settings.fullRequest with
  | true => rfl
  | false => exact ne_comm

/-- The header must be sent, but the query comes first and need not be. -/
def tracedOperation : Operation :=
  ⟨"/traces", .get, "getTraces",
    [⟨"trace", .header, true, none⟩, ⟨"trace", .query, false, none⟩], none, []⟩

theorem tracedOperation_required_iff : ∃ shape other,
    ((requestShape shelfDocument (flatSettings "traces") tracedOperation).outcome []).1 = .ok shape ∧
    ((requestShape shelfDocument { flatSettings "traces" with fullRequest := true }
      tracedOperation).outcome []).1 = .ok other ∧
    (shape.required = true ↔ tracedOperation.Requires (flatSettings "traces")) ∧
    (shape.required ≠ other.required ↔ tracedOperation.HidesRequired (flatSettings "traces")) := by
  have given : ((requestShape shelfDocument (flatSettings "traces") tracedOperation).outcome []).1 =
      .ok _ := rfl
  obtain ⟨own, others⟩ := required_iff given
  exact ⟨_, _, given, rfl, own, others [] _ rfl⟩

theorem tracedOperation_layouts_differ : ∃ shape other,
    ((requestShape shelfDocument (flatSettings "traces") tracedOperation).outcome []).1 = .ok shape ∧
    ((requestShape shelfDocument { flatSettings "traces" with fullRequest := true }
      tracedOperation).outcome []).1 = .ok other ∧
    shape.required ≠ other.required ∧
    ¬ (shape.required = true ↔
      (∃ parameter ∈ tracedOperation.parameters, parameter.location ≠ .cookie ∧
        parameterOptional (flatSettings "traces") parameter = false) ∨
      ∃ body, tracedOperation.requestBody = some body ∧ body.content ≠ [] ∧
        body.required = true) := by
  refine ⟨_, _, rfl, rfl, by decide +kernel, ?_⟩
  intro claimed
  have needed := claimed.mpr (.inl ⟨⟨"trace", .header, true, none⟩, .head _, by decide, rfl⟩)
  exact absurd needed (by decide +kernel)

end Required

section Members
variable {document : Document} {settings : Settings} {operation : Operation} {shape : RequestShape}
  {registry : Registry} {fields : List Field} {kept parameters : List Parameter}

/-- The members that an argument has of its own: those of the object with the parameters, and with
the body unless its members are spread. -/
inductive RequestShape.Own (shape : RequestShape) (fields : List Field) : Prop where
  | alone : shape.type = .object fields →
      (∀ body, shape.body = some body → body.spread = false) → Own shape fields
  | beside {body : BodyShape} : shape.body = some body → body.spread = true →
      shape.type = .intersection [.object fields, body.type] → Own shape fields

def RequestShape.NestsBody (shape : RequestShape) : Prop :=
  ∃ body, shape.body = some body ∧ body.spread = false

theorem nodup_foldl_unless_named (distinct : (kept.map (·.name)).Nodup) :
    ((parameters.foldl (fun kept parameter =>
      if kept.any (·.name == parameter.name) then kept else kept ++ [parameter]) kept).map
        (·.name)).Nodup := by
  induction parameters generalizing kept with
  | nil => exact distinct
  | cons first rest ih =>
    rw [List.foldl_cons]
    refine ih ?_
    split
    case isTrue old => exact distinct
    case isFalse new =>
      rw [List.map_append, List.map_singleton, List.nodup_append_comm, List.singleton_append,
        List.nodup_cons]
      refine ⟨?_, distinct⟩
      simpa using new

theorem Operation.nodup_flatParameters : (operation.flatParameters.map (·.name)).Nodup :=
  nodup_foldl_unless_named .nil

/-- No name of a parameter is lost in flat arguments. -/
theorem mem_names_flatParameters_iff {name : String} :
    name ∈ operation.flatParameters.map (·.name) ↔
      ∃ parameter ∈ operation.parameters, parameter.location ≠ .cookie ∧ parameter.name = name := by
  rw [List.mem_map]
  constructor
  · rintro ⟨parameter, member, named⟩
    have kept := List.mem_of_find?_eq_some (mem_flatParameters_iff.mp member)
    obtain ⟨listed, caller⟩ := mem_callerParameters_iff.mp kept
    exact ⟨parameter, listed, caller, named⟩
  · rintro ⟨parameter, listed, caller, rfl⟩
    obtain ⟨other, _, named, found⟩ := find?_flatParameters caller listed
    exact ⟨other, List.mem_of_find?_eq_some found, named⟩

/-- A type is no part of itself. -/
theorem type_ne_intersection (first type : TypeExpr) : type ≠ .intersection [first, type] := by
  intro equal
  have sizes := congrArg sizeOf equal
  simp at sizes
  omega

/-- The members of a flat argument of its own are the parameters that are kept, and the body. -/
theorem flatRequest_own (body : Option BodyShape) :
    (flatRequest document settings operation body).Yields fun shape =>
      ∀ fields, shape.Own fields → fields.map (·.name) =
        operation.flatParameters.map (·.name) ++
          ((shape.body.filter (!·.spread)).map bodyField).toList.map (·.name) := by
  refine (parameterFields_yield _).bind fun own each => ?_
  rw [names_of_fields each]
  cases body with
  | none =>
    refine .done fun fields members => ?_
    cases members with
    | alone type _ =>
      cases type
      exact (List.append_nil _).symm
    | beside given => cases given
  | some body =>
    refine .done fun fields members => ?_
    cases spread : body.spread with
    | true =>
      have none_nested : ((some body).filter (!·.spread)).map bodyField = none := by
        simp [spread]
      simp only [none_nested]
      cases members with
      | alone _ nested => exact absurd (nested body rfl) (by simp [spread])
      | beside given _ type =>
        cases given
        simp only [spread, if_true] at type
        split at type
        -- Without parameters the argument is the body, and no object holds any of them.
        · exact absurd type (type_ne_intersection _ _)
        · cases type
          simp
    | false =>
      have nested : ((some body).filter (!·.spread)).map bodyField = some (bodyField body) := by
        simp [spread]
      simp only [nested]
      cases members with
      | alone type _ =>
        simp only [spread] at type
        cases type
        simp
      | beside given joined =>
        cases given
        rw [spread] at joined
        cases joined

theorem requestShape_own (flat : settings.fullRequest = false) :
    (requestShape document settings operation).Yields fun shape =>
      ∀ fields, shape.Own fields → fields.map (·.name) =
        operation.flatParameters.map (·.name) ++
          ((shape.body.filter (!·.spread)).map bodyField).toList.map (·.name) := by
  refine (Mapping.Yields.any _).bind fun body _ => ?_
  rw [if_neg (by simp [flat])]
  exact flatRequest_own body

/-- The members of a flat argument have distinct names unless it nests a body and a parameter is
named like that. -/
theorem nodup_members_iff (flat : settings.fullRequest = false)
    (given : ((requestShape document settings operation).outcome registry).1 = .ok shape)
    (own : shape.Own fields) :
    (fields.map (·.name)).Nodup ↔ ¬ (shape.NestsBody ∧
      ∃ parameter ∈ operation.parameters, parameter.location ≠ .cookie ∧
        parameter.name = "body") := by
  rw [requestShape_own flat registry shape given fields own, ← mem_names_flatParameters_iff]
  have distinct := operation.nodup_flatParameters
  cases nested : shape.body.filter (!·.spread) with
  | none =>
    have spread : ¬ shape.NestsBody := by
      rintro ⟨body, present, alone⟩
      simp [present, alone] at nested
    simpa [spread] using distinct
  | some body =>
    have alone : shape.NestsBody := by
      obtain ⟨present, alone⟩ := Option.filter_eq_some_iff.mp nested
      exact ⟨body, present, by simpa using alone⟩
    rw [List.nodup_append_comm]
    simp only [Option.map_some, Option.toList_some, List.map_singleton, List.singleton_append,
      List.nodup_cons, distinct, alone, bodyField, and_true, true_and]

def noteOperation : Operation :=
  ⟨"/notes", .post, "postNotes", [⟨"body", .query, false, none⟩],
    some ⟨false, [("multipart/form-data", none)]⟩, []⟩

def noteFields : List Field := [⟨"body", .unknown, true⟩, ⟨"body", formData, true⟩]

def noteShape : RequestShape := ⟨.object noteFields, false, some ⟨formData, false, true, false⟩⟩

theorem noteShape_given :
    ((requestShape shelfDocument (flatSettings "notes") noteOperation).outcome []).1 =
      .ok noteShape := rfl

theorem noteShape_own : noteShape.Own noteFields :=
  .alone rfl (by rintro body ⟨⟩; rfl)

theorem noteShape_nodup_members_iff : noteShape.Own noteFields ∧
    ((noteFields.map (·.name)).Nodup ↔ ¬ (noteShape.NestsBody ∧
      ∃ parameter ∈ noteOperation.parameters, parameter.location ≠ .cookie ∧
        parameter.name = "body")) :=
  ⟨noteShape_own, nodup_members_iff rfl noteShape_given noteShape_own⟩

theorem noteShape_members_twice :
    ((requestShape shelfDocument (flatSettings "notes") noteOperation).outcome []).1 =
      .ok noteShape ∧ noteShape.Own noteFields ∧ ¬ (noteFields.map (·.name)).Nodup :=
  ⟨noteShape_given, noteShape_own, by decide⟩

end Members

end TypedClient.OpenApi
