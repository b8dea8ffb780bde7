import TypedClient.OpenApi.ClientModel
import TypedClient.Proofs.OpenApi.Reachability

/-! The walk of a client's operations, and the models that it gives.

What an operation contributes depends on itself and the settings alone, apart from
whether its body is an object type: that is read off the registry of the moment.
-/

set_option autoImplicit false

namespace TypedClient.OpenApi

open TypeScript (Declaration Field TypeExpr)

variable {α β γ : Type} {document : Document} {propsOptional : Bool}

theorem Document.Walk.append_of_error {first rest : List Step} {registry final : Registry}
    {fault : Fault} (walk : document.Walk propsOptional first registry (.error fault) final) :
    document.Walk propsOptional (first ++ rest) registry (.error fault) final := by
  generalize failure : (.error fault : Except Fault Unit) = result at walk
  induction walk with
  | done => cases failure
  | refused => exact .refused
  | known member _ ih => exact .known member (ih failure)
  | missing fresh unresolved => exact .missing fresh unresolved
  | broken fresh resolved inside _ => exact .broken fresh resolved inside
  | entered fresh resolved inside _ _ ih => exact .entered fresh resolved inside (ih failure)

/-- From a complete registry the mapping walks through the steps, and any value that it gives is of
the kind. -/
def Document.Takes (document : Document) (propsOptional : Bool) (mapping : Mapping α)
    (steps : List Step) (kind : α → Prop) : Prop :=
  ∀ registry, document.Complete propsOptional registry →
    document.Walk propsOptional steps registry
      ((mapping.outcome registry).1.map fun _ => ()) (mapping.outcome registry).2 ∧
    ∀ value, (mapping.outcome registry).1 = .ok value → kind value

namespace Document.Takes

theorem done {value : α} {kind : α → Prop} (holds : kind value) :
    document.Takes propsOptional (pure value) [] kind := by
  intro registry _
  refine ⟨.done, ?_⟩
  intro other given
  cases given
  exact holds

theorem mono {mapping : Mapping α} {steps : List Step} {kind weaker : α → Prop}
    (takes : document.Takes propsOptional mapping steps kind)
    (weaken : ∀ value, kind value → weaker value) :
    document.Takes propsOptional mapping steps weaker := by
  intro registry complete
  obtain ⟨walk, holds⟩ := takes registry complete
  exact ⟨walk, fun value given => weaken value (holds value given)⟩

theorem bind {mapping : Mapping α} {next : α → Mapping β} {first rest : List Step}
    {before : α → Prop} {kind : β → Prop}
    (takes : document.Takes propsOptional mapping first before)
    (after : ∀ value, before value → document.Takes propsOptional (next value) rest kind) :
    document.Takes propsOptional (mapping >>= next) (first ++ rest) kind := by
  intro registry complete
  obtain ⟨walk, holds⟩ := takes registry complete
  rw [MappingOn.outcome_bind]
  -- A failure of the first part is that of the whole; else the second starts complete again.
  rcases mapped : mapping.outcome registry with ⟨fault | value, middle⟩
  · rw [mapped] at walk
    exact ⟨walk.append_of_error, fun _ given => by cases given⟩
  · rw [mapped] at walk holds
    obtain ⟨walkRest, holdsRest⟩ := after value (holds value rfl) middle (complete.walk walk)
    exact ⟨walk.append walkRest, holdsRest⟩

/-- A last part without steps. -/
theorem map {mapping : Mapping α} {next : α → Mapping β} {steps : List Step} {before : α → Prop}
    {kind : β → Prop} (takes : document.Takes propsOptional mapping steps before)
    (after : ∀ value, before value → document.Takes propsOptional (next value) [] kind) :
    document.Takes propsOptional (mapping >>= next) steps kind := by
  rw [← List.append_nil steps]
  exact takes.bind after

theorem get : document.Takes propsOptional get [] (document.Complete propsOptional) := by
  intro registry complete
  refine ⟨.done, ?_⟩
  intro other given
  cases given
  exact complete

theorem mapM {f : γ → Mapping α} {steps : γ → List Step} {kind : γ → α → Prop} {items : List γ}
    (each : ∀ item ∈ items, document.Takes propsOptional (f item) (steps item) (kind item)) :
    document.Takes propsOptional (items.mapM f) (items.flatMap steps) (List.Forall₂ kind items) := by
  induction items with
  | nil => exact done .nil
  | cons item rest ih =>
    have tail := ih fun other member => each other (List.mem_cons_of_mem item member)
    rw [List.mapM_cons, List.flatMap_cons]
    refine (each item List.mem_cons_self).bind fun value holds => ?_
    exact tail.map fun values others => done (.cons holds others)

/-- Values that are determined by the items. -/
theorem mapM_eq {f : γ → Mapping α} {steps : γ → List Step} {value : γ → α} {items : List γ}
    (each : ∀ item ∈ items, document.Takes propsOptional (f item) (steps item) (· = value item)) :
    document.Takes propsOptional (items.mapM f) (items.flatMap steps) (· = items.map value) := by
  refine (mapM each).mono fun values equal => ?_
  induction equal with
  | nil => rfl
  | cons same _ ih =>
    rw [List.map_cons, same, ih fun item member => each item (List.mem_cons_of_mem _ member)]

end Document.Takes

theorem Document.typeOf_takes (document : Document) (propsOptional : Bool) (schema : Schema) :
    document.Takes propsOptional (document.typeOf propsOptional schema) schema.steps
      (· = schema.shape propsOptional) := by
  intro registry complete
  obtain ⟨outcome, final, walk, equal⟩ := document.typeOf_walk schema registry complete.named
  rw [equal]
  cases outcome with
  | error fault => exact ⟨walk, fun value given => by cases given⟩
  | ok _ => exact ⟨walk, fun value given => (Except.ok.inj given).symm⟩

def Schema.steps? (schema : Option Schema) : List Step := (schema.map Schema.steps).getD []

def Schema.shape? (propsOptional : Bool) (schema : Option Schema) : TypeExpr :=
  (schema.map (Schema.shape propsOptional)).getD .unknown

theorem Document.typeOf?_takes (document : Document) (propsOptional : Bool)
    (schema : Option Schema) :
    document.Takes propsOptional (document.typeOf? propsOptional schema) (Schema.steps? schema)
      (· = Schema.shape? propsOptional schema) := by
  cases schema with
  | none => exact .done rfl
  | some schema => exact document.typeOf_takes propsOptional schema

section Request
variable (settings : Settings)

def parameterShape (parameter : Parameter) : Field :=
  ⟨parameter.name, Schema.shape? settings.propsOptional parameter.schema,
    parameterOptional settings parameter⟩

def parameterSteps (parameters : List Parameter) : List Step :=
  parameters.flatMap fun parameter => Schema.steps? parameter.schema

theorem parameterFields_takes (document : Document) (parameters : List Parameter) :
    document.Takes settings.propsOptional (parameters.mapM (parameterField document settings))
      (parameterSteps parameters) (· = parameters.map (parameterShape settings)) := by
  refine .mapM_eq fun parameter _ => ?_
  refine (document.typeOf?_takes settings.propsOptional parameter.schema).map ?_
  rintro type rfl
  exact .done rfl

/-- The schema of an operation's body, unless there is none or it is form data. -/
def Operation.bodySchema? (operation : Operation) : Option Schema :=
  match operation.requestBody with
  | none => none
  | some body => match body.content with
    | [] => none
    | (mediaType, schema) :: _ => if isMultipart mediaType then none else schema

def bodyGiven (objectLike : TypeExpr → Bool) (operation : Operation) : Option BodyShape :=
  match operation.requestBody with
  | none => none
  | some body => match body.content with
    | [] => none
    | (mediaType, schema) :: _ =>
      if isMultipart mediaType then some ⟨formData, body.required, true, false⟩
      else
        let type := Schema.shape? settings.propsOptional schema
        some ⟨type, body.required, false, !settings.fullRequest && objectLike type⟩

/-- The value comes of what some complete registry holds to be object types. -/
def OfRegistry (document : Document) (value : (TypeExpr → Bool) → α) (given : α) : Prop :=
  ∃ registry : Registry, document.Complete settings.propsOptional registry ∧
    given = value registry.isObjectLike

theorem bodyShape_takes (document : Document) (operation : Operation) :
    document.Takes settings.propsOptional (bodyShape document settings operation)
      (Schema.steps? operation.bodySchema?)
      (OfRegistry settings document fun objectLike => bodyGiven settings objectLike operation) := by
  -- Without a mapped body the registry is not asked, so the empty one will do.
  have constant : ∀ {body : Option BodyShape},
      (∀ objectLike, bodyGiven settings objectLike operation = body) →
      OfRegistry settings document (fun objectLike => bodyGiven settings objectLike operation) body :=
    fun equal => ⟨[], .empty, (equal _).symm⟩
  unfold bodyShape Operation.bodySchema?
  rcases found : operation.requestBody with _ | ⟨required, _ | ⟨⟨mediaType, schema⟩, rest⟩⟩
  · exact .done (constant fun _ => by simp only [bodyGiven, found])
  · exact .done (constant fun _ => by simp only [bodyGiven, found])
  · simp only
    split
    case isTrue multipart =>
      exact .done (constant fun _ => by simp only [bodyGiven, found, multipart, if_true])
    case isFalse single =>
      refine (document.typeOf?_takes settings.propsOptional schema).map ?_
      rintro type rfl
      refine Document.Takes.get.map fun registry complete => .done ⟨registry, complete, ?_⟩
      simp only [bodyGiven, found, single, Bool.false_eq_true, if_false]

def groupShape (operation : Operation) (group : Location × String) : Option Field :=
  let fields := (operation.parametersIn group.1).map (parameterShape settings)
  if fields.isEmpty then none else some ⟨group.2, .object fields, fields.all (·.optional)⟩

def groupedShape (operation : Operation) (body : Option BodyShape) : RequestShape :=
  let fields := (groups.map (groupShape settings operation)).filterMap id ++
    (body.map bodyField).toList
  ⟨.object fields, fields.any (!·.optional), body⟩

def flatShape (operation : Operation) (body : Option BodyShape) : RequestShape :=
  let fields := operation.flatParameters.map (parameterShape settings)
  let required := fields.any (!·.optional)
  match body with
  | none => ⟨.object fields, required, none⟩
  | some shape =>
    let type :=
      if shape.spread then
        if fields.isEmpty then shape.type else .intersection [.object fields, shape.type]
      else .object (fields ++ [bodyField shape])
    ⟨type, required || shape.required, body⟩

def requestGiven (objectLike : TypeExpr → Bool) (operation : Operation) : RequestShape :=
  let body := bodyGiven settings objectLike operation
  if settings.fullRequest then groupedShape settings operation body
  else flatShape settings operation body

def Operation.mappedParameters (operation : Operation) : List Parameter :=
  if settings.fullRequest then groups.flatMap fun group => operation.parametersIn group.1
  else operation.flatParameters

theorem groupField_takes (document : Document) (operation : Operation)
    (group : Location × String) :
    document.Takes settings.propsOptional (groupField document settings operation group)
      (parameterSteps (operation.parametersIn group.1))
      (· = groupShape settings operation group) := by
  refine (parameterFields_takes settings document _).map ?_
  rintro fields rfl
  unfold groupShape
  simp only
  split
  · exact .done rfl
  · exact .done rfl

theorem requestShape_takes (document : Document) (operation : Operation) :
    document.Takes settings.propsOptional (requestShape document settings operation)
      (Schema.steps? operation.bodySchema? ++ parameterSteps (operation.mappedParameters settings))
      (OfRegistry settings document fun objectLike =>
        requestGiven settings objectLike operation) := by
  refine (bodyShape_takes settings document operation).bind ?_
  rintro body ⟨registry, complete, rfl⟩
  unfold Operation.mappedParameters
  split
  case isTrue full =>
    rw [parameterSteps, List.flatMap_assoc]
    refine Document.Takes.map
      (.mapM_eq fun group _ => groupField_takes settings document operation group) ?_
    rintro fields rfl
    refine .done ⟨registry, complete, ?_⟩
    simp only [requestGiven, full, if_true, groupedShape]
  case isFalse flat =>
    refine (parameterFields_takes settings document _).map ?_
    rintro fields rfl
    split
    case h_1 none =>
      refine .done ⟨registry, complete, ?_⟩
      simp only [requestGiven, if_neg flat, none, flatShape]
    case h_2 shape some =>
      refine .done ⟨registry, complete, ?_⟩
      simp only [requestGiven, if_neg flat, some, flatShape]

end Request

theorem requestGiven_body {settings : Settings} {objectLike : TypeExpr → Bool} {operation : Operation} :
    (requestGiven settings objectLike operation).body = bodyGiven settings objectLike operation := by
  unfold requestGiven flatShape
  simp only
  split
  · rfl
  · generalize bodyGiven settings objectLike operation = body
    cases body <;> rfl

section Responses
variable (settings : Settings)

def responseSteps (operation : Operation) : List Step :=
  operation.classified.flatMap fun classified => Schema.steps? classified.2.firstSchema?

def alternativeShapes (operation : Operation) : List Alternative :=
  StatusClass.all.filterMap (alternative? settings.fullResponse
    (operation.classified.map fun classified =>
      (classified.1, Schema.shape? settings.propsOptional classified.2.firstSchema?)))

theorem responseAlternatives_takes (document : Document) (operation : Operation) :
    document.Takes settings.propsOptional
      (responseAlternatives document settings.propsOptional settings.fullResponse operation)
      (responseSteps operation) (· = alternativeShapes settings operation) := by
  have bodies : document.Takes settings.propsOptional
      (responseBodies document settings.propsOptional operation.classified)
      (responseSteps operation) (· = operation.classified.map fun classified =>
        (classified.1, Schema.shape? settings.propsOptional classified.2.firstSchema?)) := by
    refine .mapM_eq fun classified _ => ?_
    refine (document.typeOf?_takes settings.propsOptional _).map ?_
    rintro type rfl
    exact .done rfl
  refine bodies.map ?_
  rintro types rfl
  exact .done rfl

end Responses

def operationSteps (settings : Settings) (operation : Operation) : List Step :=
  Schema.steps? operation.bodySchema? ++ parameterSteps (operation.mappedParameters settings) ++
    responseSteps operation

def modelGiven (settings : Settings) (operation : Operation) (objectLike : TypeExpr → Bool) :
    OperationModel :=
  ⟨operation, requestGiven settings objectLike operation, alternativeShapes settings operation⟩

theorem operationModel_takes (document : Document) (settings : Settings) (operation : Operation) :
    document.Takes settings.propsOptional (operationModel document settings operation)
      (operationSteps settings operation)
      (OfRegistry settings document (modelGiven settings operation)) := by
  rw [operationSteps, List.append_assoc, ← List.append_assoc]
  refine (requestShape_takes settings document operation).bind ?_
  rintro request ⟨registry, complete, rfl⟩
  refine (responseAlternatives_takes settings document operation).map ?_
  rintro alternatives rfl
  exact .done ⟨registry, complete, rfl⟩

namespace ClientModel

variable {settings : Settings} {reserved : List String} {model : ClientModel}

/-- With its operations at hand, a model is what mapping them gives and leaves. -/
theorem build_of_operations {operations : List Operation}
    (resolved : document.operations reserved = .ok operations) :
    build document settings reserved =
      ((operations.mapM (operationModel document settings)).outcome []).1.map fun models =>
        ⟨models, Registry.declarations
          ((operations.mapM (operationModel document settings)).outcome []).2⟩ := by
  unfold build
  rw [resolved]
  change (do
    let models ← ((operations.mapM (operationModel document settings)).outcome []).1
    return (⟨models, Registry.declarations
      ((operations.mapM (operationModel document settings)).outcome []).2⟩ : ClientModel)) = _
  cases ((operations.mapM (operationModel document settings)).outcome []).1 <;> rfl

/-- A client whose model is built comes of a walk through the steps of its operations. -/
theorem of_build (built : build document settings reserved = .ok model) :
    ∃ operations registry, document.operations reserved = .ok operations ∧
      document.Walk settings.propsOptional (operations.flatMap (operationSteps settings)) []
        (.ok ()) registry ∧
      document.Complete settings.propsOptional registry ∧
      List.Forall₂ (fun operation => OfRegistry settings document (modelGiven settings operation))
        operations model.operations ∧
      model.declarations = registry.declarations := by
  cases resolved : document.operations reserved with
  | error fault =>
    rw [build, resolved] at built
    cases built
  | ok operations =>
    have takes := Document.Takes.mapM fun operation (_ : operation ∈ operations) =>
      operationModel_takes document settings operation
    obtain ⟨walk, kind⟩ := takes [] .empty
    rw [build_of_operations resolved] at built
    rcases mapped : (operations.mapM (operationModel document settings)).outcome []
      with ⟨fault | models, registry⟩
    · rw [mapped] at built
      cases built
    · rw [mapped] at built walk kind
      cases built
      exact ⟨operations, registry, rfl, walk, Document.Complete.empty.walk walk, kind models rfl, rfl⟩

end ClientModel

end TypedClient.OpenApi
