import TypedClient.Bundle
import TypedClient.Proofs.OpenApi.SharedComponents
import TypedClient.Proofs.OpenApi.SpareDeclarations

/-! What a client is generated from.

The model of an operation is made of the used part of it, and neither kind of client is
written from anything else. Documents whose operations have the same used parts, and which
share the components that those lead to, have the same client, or fail with the same fault.
-/

set_option autoImplicit false

namespace TypedClient.OpenApi

theorem MappingOn.outcome_map {α β : Type} (f : α → β) (mapping : Mapping α) (registry : Registry) :
    (f <$> mapping).outcome registry =
      ((mapping.outcome registry).1.map f, (mapping.outcome registry).2) := by
  rw [map_eq_pure_bind, outcome_bind]
  rcases mapping.outcome registry with ⟨fault | value, after⟩ <;> rfl

section Operation
variable (operation : Operation)

theorem location_of_mem_groups : ∀ group ∈ groups, group.1 ≠ .cookie := by decide

theorem Operation.parametersIn_used {location : Location} (called : location ≠ .cookie) :
    operation.used.parametersIn location = operation.parametersIn location := by
  unfold parametersIn used
  rw [List.filter_filter]
  refine List.filter_congr fun parameter _ => ?_
  cases place : parameter.location == location with
  | false => rw [Bool.false_and]
  | true => rw [Bool.true_and, Parameter.counts, beq_iff_eq.mp place, bne_iff_ne.mpr called]

theorem Operation.flatParameters_used : operation.used.flatParameters = operation.flatParameters := by
  unfold flatParameters
  rw [List.flatMap_congr fun group member => operation.parametersIn_used (location_of_mem_groups group member)]

theorem Operation.classified_used : operation.used.classified = operation.classified := by
  unfold classified used
  rw [List.filterMap_filter]
  refine List.filterMap_congr fun entry _ => ?_
  obtain ⟨key, response⟩ := entry
  cases found : StatusClass.ofKey? key <;> simp [hasClass, found]

variable (document : Document) (settings : Settings)

theorem groupField_used {group : Location × String} (member : group ∈ groups) :
    groupField document settings operation.used group = groupField document settings operation group := by
  unfold groupField
  rw [operation.parametersIn_used (location_of_mem_groups group member)]

theorem requestShape_used :
    requestShape document settings operation.used = requestShape document settings operation := by
  have groupFields : groups.mapM (groupField document settings operation.used) =
      groups.mapM (groupField document settings operation) :=
    mapM_congr fun group member => groupField_used operation document settings member
  unfold requestShape groupedRequest flatRequest
  rw [groupFields, operation.flatParameters_used]
  rfl

theorem responseAlternatives_used (propsOptional wrap : Bool) :
    responseAlternatives document propsOptional wrap operation.used =
      responseAlternatives document propsOptional wrap operation := by
  unfold responseAlternatives
  rw [operation.classified_used]

def OperationModel.used (model : OperationModel) : OperationModel :=
  { model with operation := model.operation.used }

theorem operationModel_used :
    operationModel document settings operation.used =
      OperationModel.used <$> operationModel document settings operation := by
  unfold operationModel
  rw [requestShape_used, responseAlternatives_used]
  simp only [map_bind, map_pure]
  rfl

end Operation

theorem mapM_operationModel_used (document : Document) (settings : Settings)
    (operations : List Operation) :
    (operations.map Operation.used).mapM (operationModel document settings) =
      List.map OperationModel.used <$> operations.mapM (operationModel document settings) := by
  induction operations with
  | nil => rfl
  | cons operation rest ih =>
    rw [List.map_cons, List.mapM_cons, ih, operationModel_used, List.mapM_cons]
    simp only [map_eq_pure_bind, bind_assoc, pure_bind, List.map_cons]

/-- The documents differ in no more than what is unused: cookies and responses without a class that
are declared in place, and components that the schemas of a client do not lead to. -/
structure Document.SameUsed (settings : Settings) (left right : Document) : Prop
    extends left.SameDeclarations right where
  shares : ∀ schema, left.Uses settings schema → left.Shares right schema

namespace ClientModel

def used (model : ClientModel) : ClientModel :=
  { model with operations := model.operations.map OperationModel.used }

section Build
variable {settings : Settings} {left right : Document} {reserved : List String} {operations others : List Operation}

theorem build_of_error {document : Document} {fault : Fault}
    (failed : document.operations reserved = .error fault) :
    build document settings reserved = .error fault := by
  rw [build, failed]
  rfl

/-- The used part of a model comes of mapping the used parts of the operations. -/
theorem build_used {document : Document} (resolved : document.operations reserved = .ok operations) :
    (build document settings reserved).map used =
      (((operations.map Operation.used).mapM (operationModel document settings)).outcome []).1.map
        fun models => ⟨models, Registry.declarations
          (((operations.map Operation.used).mapM (operationModel document settings)).outcome []).2⟩ := by
  rw [build_of_operations resolved, mapM_operationModel_used, MappingOn.outcome_map]
  cases ((operations.mapM (operationModel document settings)).outcome []).1 <;> rfl

theorem build_used_eq (same : left.SameUsed settings right) (reserved : List String) :
    (build left settings reserved).map used = (build right settings reserved).map used := by
  have alike := same.operations reserved
  generalize foundLeft : left.operations reserved = operationsLeft at alike
  generalize foundRight : right.operations reserved = operationsRight at alike
  cases alike with
  | error => rw [build_of_error foundLeft, build_of_error foundRight]
  | @ok operations others equal =>
    have pairs := (Document.operations_eq_ok_iff.mp foundLeft).2.1
    -- The used parts of the operations are those of the others, so one mapping of them is both models.
    have agree : Mapping.Agree ((operations.map Operation.used).mapM (operationModel left settings))
        ((operations.map Operation.used).mapM (operationModel right settings)) := by
      rw [mapM_operationModel_used, mapM_operationModel_used]
      refine Mapping.Agree.map (.mapM fun operation member => agree_operationModel ?_) _
      exact fun schema uses => same.shares schema ((Document.uses_iff pairs).mpr ⟨operation, member, uses⟩)
    have empty : Registry.Named [] := fun _ member => absurd member List.not_mem_nil
    rw [build_used foundLeft, build_used foundRight, ← equal, (agree [] empty).1]

/-- What does not depend on unused parts is the same. -/
theorem map_build_eq {α : Type} {written : ClientModel → α} (blind : ∀ model, written model.used = written model)
    (same : left.SameUsed settings right) (reserved : List String) :
    (build left settings reserved).map written = (build right settings reserved).map written := by
  have through (outcome : Except Fault ClientModel) : outcome.map written = (outcome.map used).map written := by
    cases outcome with
    | error fault => rfl
    | ok model => exact congrArg Except.ok (blind model).symm
  rw [through, through (build right settings reserved), build_used_eq same]

end Build

section Declarations
variable (model : ClientModel)

theorem usesFormData_used : model.used.usesFormData = model.usesFormData := List.any_map

theorem declarationSteps_used (quotes : Text.QuoteStyle) :
    model.used.declarationSteps quotes = model.declarationSteps quotes := by
  unfold declarationSteps used
  rw [List.flatMap_map]
  rfl

theorem methods_used (first : List MethodSignature) :
    model.used.methods first = model.methods first := by
  unfold methods used
  rw [List.map_map]
  rfl

end Declarations

end ClientModel

namespace ServiceClient

theorem typeSteps_used (settings : Settings) (name : ClientName) (model : ClientModel) :
    typeSteps settings name model.used = typeSteps settings name model := by
  simp only [typeSteps, model.usesFormData_used, model.declarationSteps_used, model.methods_used]

theorem generate_eq_map (document : Document) (settings : Settings) :
    generate document settings = (ClientModel.build document settings []).map fun model =>
      ⟨Page.render Style.standard (typeSteps settings (.ofText settings.name) model),
        Page.render Style.standard (implementationSteps settings (.ofText settings.name))⟩ := by
  unfold generate
  cases ClientModel.build document settings [] <;> rfl

end ServiceClient

namespace FetchClient

theorem parameterBindings_used (operation : Operation) :
    parameterBindings operation.used = parameterBindings operation := by
  unfold parameterBindings Operation.used
  simp only [List.filter_filter, Parameter.counts, Bool.and_self]

theorem operationSteps_used (dialect : Dialect) (model : OperationModel) :
    operationSteps dialect model.used = operationSteps dialect model := by
  have query : model.used.operation.parametersIn .query = model.operation.parametersIn .query :=
    model.operation.parametersIn_used (by decide)
  have header : model.used.operation.parametersIn .header = model.operation.parametersIn .header :=
    model.operation.parametersIn_used (by decide)
  have spread : spreadBodyText dialect model.used = spreadBodyText dialect model := by
    unfold spreadBodyText
    rw [show model.used.operation = model.operation.used from rfl, parameterBindings_used]
    rfl
  have body : bodySteps dialect model.used = bodySteps dialect model := by
    unfold bodySteps bodyText
    rw [spread]
    rfl
  unfold operationSteps sendHeader
  rw [query, header, body]
  rfl

theorem typeSteps_used (settings : Settings) (name : ClientName) (model : ClientModel) :
    typeSteps settings name model.used = typeSteps settings name model := by
  simp only [typeSteps, model.declarationSteps_used, model.methods_used]

theorem members_used (model : ClientModel) : members model.used = members model := by
  unfold members ClientModel.used
  rw [List.map_map]
  rfl

theorem implementationSteps_used (settings : Settings) (name : ClientName) (model : ClientModel) :
    implementationSteps settings name model.used = implementationSteps settings name model := by
  unfold implementationSteps buildSteps
  rw [members_used]
  simp only [ClientModel.used, List.flatMap_map, operationSteps_used]
  rfl

theorem generate_eq_map (document : Document) (settings : Settings) :
    generate document settings = (ClientModel.build document settings reservedIds).map fun model =>
      ⟨Page.render Style.standard (typeSteps settings (.ofText settings.name) model),
        Page.render Style.standard (implementationSteps settings (.ofText settings.name) model)⟩ := by
  unfold generate
  cases ClientModel.build document settings reservedIds <;> rfl

end FetchClient

/-- Unused parts of a document have no influence: neither on the client nor on how it fails. -/
theorem Document.SameUsed.generate_eq {settings : Settings} {left right : Document}
    (same : left.SameUsed settings right) :
    generate (.openApi left) settings = generate (.openApi right) settings := by
  simp only [generate]
  split
  case isTrue frontend =>
    rw [FetchClient.generate_eq_map, FetchClient.generate_eq_map]
    refine ClientModel.map_build_eq (fun model => ?_) same _
    rw [FetchClient.typeSteps_used, FetchClient.implementationSteps_used]
  case isFalse backend =>
    rw [ServiceClient.generate_eq_map, ServiceClient.generate_eq_map]
    refine ClientModel.map_build_eq (fun model => ?_) same _
    rw [ServiceClient.typeSteps_used]

def overgrownDocument : Document where
  paths := [("/nodes", ⟨[.item ⟨"session", .cookie, false, some (.reference "#/nowhere")⟩], [
    ⟨.get, some "root", [.item ⟨"theme", .cookie, true, none⟩], none,
      [("200", .item ⟨none,
        [("application/json", some (.reference "#/components/schemas/Node"))], none⟩),
       ("default", .item ⟨none, [], some (.reference "#/nowhere")⟩)]⟩,
    ⟨.post, some "plant", [], some (.item ⟨true, [("multipart/form-data", none)]⟩), []⟩]⟩)]
  components := { treeDocument.components with
    schemas := ("Weed", .keywords { Keywords.bare with types := some (.one "file") }) ::
      treeDocument.components.schemas }
  definitions := [("Leaf", .reference "#/nowhere")]

def treeReferences : List String := ["#/components/schemas/Node", "#/components/schemas/Tag"]

theorem settled_tree : treeDocument.Settled treeReferences := by
  intro reference member
  simp only [treeReferences, List.mem_cons, List.not_mem_nil, or_false] at member
  rcases member with rfl | rfl
  · refine ⟨_, rfl, ?_⟩
    change ∀ step ∈ [Step.meet "#/components/schemas/Tag", .meet "#/components/schemas/Node"], _
    simp [Step.Within, treeReferences]
  · refine ⟨_, rfl, ?_⟩
    change ∀ step ∈ ([] : List Step), _
    simp

theorem sameUsed_tree : treeDocument.SameUsed (Settings.standard "trees") overgrownDocument where
  paths := rfl
  parameters := rfl
  requestBodies := rfl
  responses := rfl
  shares := by
    intro schema uses reference reaches
    obtain ⟨operations, found⟩ : ∃ operations, treeDocument.operations [] = .ok operations := ⟨_, rfl⟩
    have pairs := (Document.operations_eq_ok_iff.mp found).2.1
    cases found
    have known : reference ∈ treeReferences := by
      refine reaches.mem_of_settled settled_tree fun other met => ?_
      have step := (Document.mem_steps_iff pairs).mpr ⟨schema, uses, met⟩
      change Step.meet other ∈ [Step.meet "#/components/schemas/Node"] at step
      rw [Step.meet.inj (List.mem_singleton.mp step)]
      exact List.mem_cons_self
    simp only [treeReferences, List.mem_cons, List.not_mem_nil, or_false] at known
    rcases known with rfl | rfl <;> rfl

theorem tree_generate_eq :
    treeDocument.SameUsed (Settings.standard "trees") overgrownDocument ∧
      generate (.openApi treeDocument) (Settings.standard "trees") =
        generate (.openApi overgrownDocument) (Settings.standard "trees") :=
  ⟨sameUsed_tree, sameUsed_tree.generate_eq⟩

end TypedClient.OpenApi
