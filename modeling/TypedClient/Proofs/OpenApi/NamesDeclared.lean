import TypedClient.Proofs.OpenApi.OperationWalk
import TypedClient.Proofs.OpenApi.ShapeParts

/-! Every name that a client's types mention is declared.

The names of a schema's type are those of the references that its mapping meets. A walk
that succeeds has entered all of them, and a complete registry declares what it has
entered.
-/

set_option autoImplicit false

namespace TypedClient.OpenApi

open TypeScript (Declaration Field TypeExpr)

variable {document : Document} {name : String}

/-- Keywords bring in no names of their own. -/
theorem mentions_keywordsShape {propsOptional : Bool} {content : Keywords TypeExpr}
    (mentions : (keywordsShape propsOptional content).Mentions name) :
    ∃ part ∈ content.visited, part.Mentions name := by
  obtain ⟨part, names, occurs⟩ := TypeExpr.exists_names_of_mentions mentions
  rcases comesFrom_or_of_keywordsShape occurs with (⟨type, inside, occurs⟩ | solid) | ⟨rfl, -⟩
  · exact ⟨type, inside, TypeExpr.mentions_of_occursIn names occurs⟩
  · exact absurd solid names.not_solid
  · cases names

/-- Every name in the type of a schema is the name of a reference that its mapping meets. -/
theorem Schema.meets_of_mentions {propsOptional : Bool} {schema : Schema}
    (mentions : (schema.shape propsOptional).Mentions name) :
    ∃ reference, .meet reference ∈ schema.steps ∧ name = referenceTypeName reference := by
  induction schema using Schema.induction with
  | reference target =>
    rw [shape, fold_reference] at mentions
    exact ⟨target, Schema.meet_mem_steps_reference.mpr rfl, mentions.of_reference⟩
  | keywords content ih =>
    rw [shape, fold_keywords] at mentions
    obtain ⟨type, inside, mentions⟩ := mentions_keywordsShape mentions
    rw [Keywords.visited_map] at inside
    obtain ⟨part, visited, rfl⟩ := List.mem_map.mp inside
    obtain ⟨reference, met, same⟩ := ih part (content.visited_subset visited) mentions
    exact ⟨reference, Schema.meet_mem_steps_keywords.mpr ⟨part, visited, met⟩, same⟩

theorem mentions_componentDeclaration {given : String} {type : TypeExpr}
    (mentions : (componentDeclaration given type).Mentions name) : type.Mentions name := by
  unfold componentDeclaration at mentions
  split at mentions <;> exact mentions

namespace Document.Complete

variable {propsOptional : Bool} {registry : Registry}

theorem declared (complete : document.Complete propsOptional registry) {reference : String}
    (member : reference ∈ registry.references) :
    ∃ declaration ∈ registry.declarations, declaration.name = referenceTypeName reference := by
  obtain ⟨target, resolved, _⟩ := complete.settled reference member
  have declared := document.declarationOf_of_schemaAt propsOptional resolved
  exact ⟨_, complete.mem_declarations_iff.mpr ⟨reference, member, declared⟩,
    componentDeclaration_name _ _⟩

/-- What a schema mentions is declared once its steps have been walked. -/
theorem declared_of_mentions (complete : document.Complete propsOptional registry)
    {schema : Schema} (within : ∀ step ∈ schema.steps, step.Within registry.references)
    (mentions : (schema.shape propsOptional).Mentions name) :
    ∃ declaration ∈ registry.declarations, declaration.name = name := by
  obtain ⟨reference, met, same⟩ := Schema.meets_of_mentions mentions
  rw [same]
  exact complete.declared (within _ met)

theorem closed (complete : document.Complete propsOptional registry) {declaration : Declaration}
    (member : declaration ∈ registry.declarations) (mentions : declaration.Mentions name) :
    ∃ other ∈ registry.declarations, other.name = name := by
  obtain ⟨reference, inside, declared⟩ := complete.mem_declarations_iff.mp member
  obtain ⟨target, resolved, within⟩ := complete.settled reference inside
  rw [Document.declarationOf, resolved, Option.map_some] at declared
  cases declared
  exact complete.declared_of_mentions within (mentions_componentDeclaration mentions)

theorem declared_of_mentions? (complete : document.Complete propsOptional registry)
    {schema : Option Schema}
    (within : ∀ step ∈ Schema.steps? schema, step.Within registry.references)
    (mentions : (Schema.shape? propsOptional schema).Mentions name) :
    ∃ declaration ∈ registry.declarations, declaration.name = name := by
  cases schema with
  | none => cases mentions
  | some schema => exact complete.declared_of_mentions within mentions

end Document.Complete

section Request
variable {settings : Settings} {objectLike : TypeExpr → Bool} {operation : Operation}

theorem mentions_bodyGiven {body : BodyShape}
    (given : bodyGiven settings objectLike operation = some body)
    (mentions : body.type.Mentions name) :
    (name = "FormData" ∧ body.multipart = true) ∨
      (Schema.shape? settings.propsOptional operation.bodySchema?).Mentions name := by
  unfold bodyGiven at given
  unfold Operation.bodySchema?
  split at given
  case h_1 => cases given
  case h_2 requestBody =>
    split at given
    case h_1 => cases given
    case h_2 mediaType schema rest =>
      split at given
      case isTrue multipart =>
        cases given
        exact .inl ⟨mentions.of_reference, rfl⟩
      case isFalse single =>
        cases given
        rw [if_neg single]
        exact .inr mentions

theorem mentions_parameterShapes {parameters : List Parameter}
    (mentions : (TypeExpr.object (parameters.map (parameterShape settings))).Mentions name) :
    ∃ parameter ∈ parameters,
      (Schema.shape? settings.propsOptional parameter.schema).Mentions name := by
  cases mentions with
  | field inside mentions =>
    obtain ⟨parameter, member, rfl⟩ := List.mem_map.mp inside
    exact ⟨parameter, member, mentions⟩

theorem mentions_groupShape {group : Location × String} {field : Field}
    (grouped : groupShape settings operation group = some field)
    (mentions : field.type.Mentions name) :
    ∃ parameter ∈ operation.parametersIn group.1,
      (Schema.shape? settings.propsOptional parameter.schema).Mentions name := by
  unfold groupShape at grouped
  simp only at grouped
  split at grouped
  · cases grouped
  · cases grouped
    exact mentions_parameterShapes mentions

variable {body : Option BodyShape}

theorem mentions_groupedShape
    (mentions : (groupedShape settings operation body).type.Mentions name) :
    (∃ parameter ∈ groups.flatMap fun group => operation.parametersIn group.1,
      (Schema.shape? settings.propsOptional parameter.schema).Mentions name) ∨
    ∃ shape, body = some shape ∧ shape.type.Mentions name := by
  cases mentions with
  | field inside mentions =>
    rcases List.mem_append.mp inside with inside | inside
    · obtain ⟨grouped, member, same⟩ := List.mem_filterMap.mp inside
      obtain ⟨group, listed, rfl⟩ := List.mem_map.mp member
      obtain ⟨parameter, member, mentions⟩ := mentions_groupShape same mentions
      exact .inl ⟨parameter, List.mem_flatMap.mpr ⟨group, listed, member⟩, mentions⟩
    · obtain ⟨shape, given, rfl⟩ := Option.map_eq_some_iff.mp (Option.mem_toList.mp inside)
      exact .inr ⟨shape, given, mentions⟩

theorem mentions_flatShape (mentions : (flatShape settings operation body).type.Mentions name) :
    (∃ parameter ∈ operation.flatParameters,
      (Schema.shape? settings.propsOptional parameter.schema).Mentions name) ∨
    ∃ shape, body = some shape ∧ shape.type.Mentions name := by
  unfold flatShape at mentions
  simp only at mentions
  split at mentions
  case h_1 => exact .inl (mentions_parameterShapes mentions)
  case h_2 shape =>
    simp only at mentions
    split at mentions
    case isTrue =>
      split at mentions
      · exact .inr ⟨shape, rfl, mentions⟩
      · rcases mentions.of_intersection_pair with mentions | mentions
        · exact .inl (mentions_parameterShapes mentions)
        · exact .inr ⟨shape, rfl, mentions⟩
    case isFalse =>
      cases mentions with
      | field inside mentions =>
        rcases List.mem_append.mp inside with inside | inside
        · exact .inl (mentions_parameterShapes (.field inside mentions))
        · rw [List.mem_singleton.mp inside] at mentions
          exact .inr ⟨shape, rfl, mentions⟩

/-- What an argument mentions comes from its parameters or from its body. -/
theorem mentions_requestGiven
    (mentions : (requestGiven settings objectLike operation).type.Mentions name) :
    (∃ parameter ∈ operation.mappedParameters settings,
      (Schema.shape? settings.propsOptional parameter.schema).Mentions name) ∨
    ∃ body, bodyGiven settings objectLike operation = some body ∧ body.type.Mentions name := by
  unfold requestGiven at mentions
  unfold Operation.mappedParameters
  split at mentions
  case isTrue full =>
    rw [if_pos full]
    exact mentions_groupedShape mentions
  case isFalse flat =>
    rw [if_neg flat]
    exact mentions_flatShape mentions

end Request

section Responses
variable {settings : Settings} {operation : Operation}

def classShapes (settings : Settings) (operation : Operation) (status : StatusClass) :
    List TypeExpr :=
  ((operation.classified.map fun classified =>
    (classified.1, Schema.shape? settings.propsOptional classified.2.firstSchema?)).filter
      (·.1 == status)).map (·.2)

theorem mentions_classShapes {status : StatusClass}
    (mentions : (TypeExpr.unionOf (classShapes settings operation status)).Mentions name) :
    ∃ classified ∈ operation.classified,
      (Schema.shape? settings.propsOptional classified.2.firstSchema?).Mentions name := by
  obtain ⟨type, inside, mentions⟩ := mentions.of_unionOf
  obtain ⟨pair, kept, rfl⟩ := List.mem_map.mp inside
  obtain ⟨classified, listed, rfl⟩ := List.mem_map.mp (List.mem_filter.mp kept).1
  exact ⟨classified, listed, mentions⟩

/-- What an alternative mentions comes from a response, or from the wrapping of full responses. -/
theorem mentions_alternativeShapes {alternative : Alternative}
    (member : alternative ∈ alternativeShapes settings operation)
    (mentions : alternative.type.Mentions name) :
    (∃ classified ∈ operation.classified,
      (Schema.shape? settings.propsOptional classified.2.firstSchema?).Mentions name) ∨
    settings.fullResponse = true ∧
      (name = "FullResponse" ∨ ∃ status : StatusClass, name = status.typeName) := by
  obtain ⟨status, _, grouped⟩ := List.mem_filterMap.mp member
  unfold alternative? at grouped
  split at grouped
  case h_1 => cases grouped
  case h_2 =>
    cases grouped
    simp only at mentions
    split at mentions
    case isTrue wrap =>
      cases mentions with
      | generic => exact .inr ⟨wrap, .inl rfl⟩
      | argument inside mentions =>
        rcases List.mem_cons.mp inside with rfl | inside
        · exact .inl (mentions_classShapes mentions)
        · rw [List.mem_singleton.mp inside] at mentions
          exact .inr ⟨wrap, .inr ⟨status, mentions.of_reference⟩⟩
    case isFalse => exact .inl (mentions_classShapes mentions)

end Responses

namespace ClientModel

variable {settings : Settings} {reserved : List String} {model : ClientModel}

def Mentions (model : ClientModel) (name : String) : Prop :=
  (∃ declaration ∈ model.declarations, declaration.Mentions name) ∨
  ∃ operation ∈ model.operations, operation.request.type.Mentions name ∨
    ∃ alternative ∈ operation.alternatives, alternative.type.Mentions name

/-- A model mentions the components that it declares, form data if it uses that, and the parts of
full responses if they are asked for. -/
theorem names_declared (built : build document settings reserved = .ok model)
    (mentions : model.Mentions name) :
    (∃ declaration ∈ model.declarations, declaration.name = name) ∨
    (name = "FormData" ∧ model.usesFormData = true) ∨
    (settings.fullResponse = true ∧
      (name = "FullResponse" ∨ ∃ status : StatusClass, name = status.typeName)) := by
  obtain ⟨operations, registry, _, walk, complete, models, declarations⟩ := of_build built
  have within := walk.settles.1
  rw [declarations]
  rcases mentions with ⟨declaration, member, mentions⟩ | ⟨operationModel, member, mentions⟩
  · rw [declarations] at member
    exact .inl (complete.closed member mentions)
  · obtain ⟨operation, listed, other, _, given⟩ := exists_left_of_forall₂ models member
    subst given
    -- All steps of the operation were walked, so whatever its schemas meet has been entered.
    have withinOperation : ∀ step ∈ operationSteps settings operation,
        step.Within registry.references :=
      fun step met => within step (List.mem_flatMap.mpr ⟨operation, listed, met⟩)
    simp only [operationSteps, List.mem_append] at withinOperation
    rcases mentions with mentions | ⟨alternative, inside, mentions⟩
    · rcases mentions_requestGiven mentions with ⟨parameter, used, mentions⟩ | ⟨body, given, mentions⟩
      · refine .inl (complete.declared_of_mentions? ?_ mentions)
        intro step met
        exact withinOperation step (.inl (.inr (List.mem_flatMap.mpr ⟨parameter, used, met⟩)))
      · rcases mentions_bodyGiven given mentions with ⟨same, multipart⟩ | mentions
        · refine .inr (.inl ⟨same, ?_⟩)
          rw [usesFormData, List.any_eq_true]
          refine ⟨_, member, ?_⟩
          simp only [modelGiven, requestGiven_body, given, Option.any_some, multipart]
        · refine .inl (complete.declared_of_mentions? ?_ mentions)
          exact fun step met => withinOperation step (.inl (.inl met))
    · rcases mentions_alternativeShapes inside mentions with ⟨classified, listed, mentions⟩ | wrapped
      · refine .inl (complete.declared_of_mentions? ?_ mentions)
        intro step met
        exact withinOperation step (.inr (List.mem_flatMap.mpr ⟨classified, listed, met⟩))
      · exact .inr (.inr wrapped)

theorem tree_names_declared :
    ∃ model, build treeDocument (Settings.standard "Tree") [] = .ok model ∧
      model.Mentions "Node" ∧
      ((∃ declaration ∈ model.declarations, declaration.name = "Node") ∨
        ("Node" = "FormData" ∧ model.usesFormData = true) ∨
        ((Settings.standard "Tree").fullResponse = true ∧
          ("Node" = "FullResponse" ∨ ∃ status : StatusClass, "Node" = status.typeName))) := by
  obtain ⟨model, built⟩ : ∃ model, build treeDocument (Settings.standard "Tree") [] = .ok model :=
    ⟨_, rfl⟩
  have mentions : model.Mentions "Node" := by
    cases built
    refine .inr ⟨_, List.mem_cons_self, .inr ⟨_, List.mem_cons_self, ?_⟩⟩
    exact .argument List.mem_cons_self .reference
  exact ⟨model, built, mentions, names_declared built mentions⟩

end ClientModel

end TypedClient.OpenApi
