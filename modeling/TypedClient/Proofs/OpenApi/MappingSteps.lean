import TypedClient.Proofs.OpenApi.SchemaShape

/-! Mapping a schema performs its steps and gives its shape.

This is where the traversal of a schema is opened, once. What follows about
mapping speaks of lists of steps, and only of how a reference is entered.
-/

set_option autoImplicit false

namespace TypedClient.OpenApi

open TypeScript (Field TypeExpr)

variable {σ α β : Type}

namespace MappingOn

def outcome (mapping : MappingOn σ α) (state : σ) : Except Fault α × σ :=
  mapping.run.run state

@[simp] theorem outcome_pure (value : α) (state : σ) :
    outcome (pure value) state = (.ok value, state) := rfl

@[simp] theorem outcome_get (state : σ) : outcome get state = (.ok state, state) := rfl

@[simp] theorem outcome_modify (change : σ → σ) (state : σ) :
    outcome (modify change) state = (.ok (), change state) := rfl

@[simp] theorem outcome_lift (result : Except Fault α) (state : σ) :
    outcome (liftM result : MappingOn σ α) state = (result, state) := rfl

theorem outcome_bind (mapping : MappingOn σ α) (next : α → MappingOn σ β) (state : σ) :
    outcome (mapping >>= next) state =
      match mapping.outcome state with
      | (.ok value, after) => (next value).outcome after
      | (.error fault, after) => (.error fault, after) := by
  -- The two layers of the monad are opened here and nowhere else.
  change outcome (ExceptT.bind mapping next) state = _
  unfold outcome ExceptT.bind ExceptT.run ExceptT.mk ExceptT.bindCont
  simp only [StateT.run_bind]
  rcases StateT.run mapping state with ⟨result, after⟩
  cases result <;> rfl

end MappingOn

def Registry.Named (registry : Registry) : Prop :=
  ∀ entry ∈ registry, entry.name = referenceTypeName entry.reference

section Perform
variable (good : σ → Prop) (enter : String → MappingOn σ String)

def Step.perform : Step → MappingOn σ Unit
  | .meet reference => do
    let _ ← enter reference
    return ()
  | .refuse name => throw (.unknownNode .openApiType name)

def performAll : List Step → MappingOn σ Unit
  | [] => return ()
  | step :: rest => do
    step.perform enter
    performAll rest

theorem performAll_append (first rest : List Step) :
    performAll enter (first ++ rest) = (do performAll enter first; performAll enter rest) := by
  induction first with
  | nil => simp only [List.nil_append, performAll, pure_bind]
  | cons step first ih => simp only [List.cons_append, performAll, ih, bind_assoc]

/-- From a good state entering a reference leads to a good one and gives the name of the reference. -/
def NamesOn : Prop :=
  ∀ (reference : String) (state : σ), good state →
    good ((enter reference).outcome state).2 ∧
    ∀ name, ((enter reference).outcome state).1 = .ok name → name = referenceTypeName reference

/-- From a good state the mapping does what the steps do, and gives the value if they succeed. -/
def PerformsOn (mapping : MappingOn σ α) (steps : List Step) (value : α) : Prop :=
  ∀ state : σ, good state →
    mapping.outcome state =
      ((performAll enter steps >>= fun _ => return value : MappingOn σ α)).outcome state

end Perform

abbrev Names := NamesOn Registry.Named

abbrev Performs (enter : String → Mapping String) (mapping : Mapping α) (steps : List Step) (value : α) :=
  PerformsOn Registry.Named enter mapping steps value

variable {good : σ → Prop} {enter : String → MappingOn σ String}

theorem outcome_meet (enter : String → MappingOn σ String) (reference : String) (rest : List Step)
    (state : σ) : (performAll enter (.meet reference :: rest)).outcome state =
      match (enter reference).outcome state with
      | (.ok _, after) => (performAll enter rest).outcome after
      | (.error fault, after) => (.error fault, after) := by
  rw [performAll, Step.perform, bind_assoc, MappingOn.outcome_bind]
  simp only [pure_bind]
  rcases (enter reference).outcome state with ⟨_ | _, _⟩ <;> rfl

theorem NamesOn.performAll (names : NamesOn good enter) (steps : List Step) (state : σ)
    (start : good state) : good ((performAll enter steps).outcome state).2 := by
  induction steps generalizing state with
  | nil => exact start
  | cons step rest ih =>
    cases step with
    | refuse name => exact start
    | meet reference =>
      have kept := (names reference state start).1
      rw [outcome_meet]
      rcases entered : (enter reference).outcome state with ⟨name | name, after⟩
      · rw [entered] at kept
        exact kept
      · rw [entered] at kept
        exact ih after kept

namespace PerformsOn

theorem done (value : α) : PerformsOn good enter (return value) [] value := by
  intro state _
  rw [performAll, pure_bind]

theorem refused (name : String) (value : α) :
    PerformsOn good enter (throw (.unknownNode .openApiType name)) [.refuse name] value := by
  intro state _
  rfl

theorem bind (names : NamesOn good enter) {mapping : MappingOn σ α} {next : α → MappingOn σ β}
    {first rest : List Step} {value : α} {result : β} (before : PerformsOn good enter mapping first value)
    (after : PerformsOn good enter (next value) rest result) :
    PerformsOn good enter (mapping >>= next) (first ++ rest) result := by
  intro state start
  have kept := names.performAll first state start
  -- The first steps leave a named registry, from which the second part does what it should.
  rw [performAll_append, bind_assoc, MappingOn.outcome_bind, before state start,
    MappingOn.outcome_bind, MappingOn.outcome_bind]
  rcases performed : (performAll enter first).outcome state with ⟨result | result, middle⟩
  · rfl
  · rw [performed] at kept
    exact after middle kept

theorem map {mapping : MappingOn σ α} {steps : List Step} {value : α}
    (before : PerformsOn good enter mapping steps value) (f : α → β) :
    PerformsOn good enter (f <$> mapping) steps (f value) := by
  intro state start
  rw [map_eq_pure_bind, MappingOn.outcome_bind, before state start, MappingOn.outcome_bind,
    MappingOn.outcome_bind]
  rcases (performAll enter steps).outcome state with ⟨result | result, after⟩ <;> rfl

theorem outcome_eq {mapping : MappingOn σ α} {steps : List Step} {value : α}
    {outcome : Except Fault Unit} {state final : σ} (performs : PerformsOn good enter mapping steps value)
    (start : good state) (performed : (performAll enter steps).outcome state = (outcome, final)) :
    mapping.outcome state = (outcome.map fun _ => value, final) := by
  rw [performs state start, MappingOn.outcome_bind, performed]
  cases outcome <;> rfl

theorem entered (names : NamesOn good enter) (target : String) (f : String → α) :
    PerformsOn good enter (do return f (← enter target)) [.meet target] (f (referenceTypeName target)) := by
  intro state start
  have name := (names target state start).2
  simp only [performAll, Step.perform, bind_assoc, pure_bind]
  rw [MappingOn.outcome_bind, MappingOn.outcome_bind]
  rcases result : (enter target).outcome state with ⟨fault | given, after⟩
  · rfl
  · rw [result] at name
    rw [name given rfl]

theorem mapM (names : NamesOn good enter) {γ : Type} {f : γ → MappingOn σ α} {steps : γ → List Step}
    {value : γ → α} (items : List γ)
    (each : ∀ item ∈ items, PerformsOn good enter (f item) (steps item) (value item)) :
    PerformsOn good enter (items.mapM f) (items.flatMap steps) (items.map value) := by
  induction items with
  | nil => exact done []
  | cons item rest ih =>
    have tail := ih fun other member => each other (List.mem_cons_of_mem item member)
    rw [List.mapM_cons, List.flatMap_cons, List.map_cons]
    apply bind names (each item List.mem_cons_self)
    rw [← List.append_nil (rest.flatMap steps)]
    exact bind names tail (done _)

end PerformsOn

namespace Schema

theorem typesWith_eq (propsOptional : Bool) (enter : String → MappingOn σ String)
    (schemas : List Schema) :
    typesWith propsOptional enter schemas = schemas.mapM (typeWith propsOptional enter) := by
  induction schemas with
  | nil => rfl
  | cons schema rest ih => simp only [typesWith, ih, List.mapM_cons]

theorem fieldsWith_eq (propsOptional : Bool) (enter : String → MappingOn σ String)
    (required : List String) (properties : List (String × Schema)) :
    fieldsWith propsOptional enter required properties = properties.mapM fun property =>
      (fun type => ⟨property.1, type, isOptional propsOptional required property.1⟩) <$>
        property.2.typeWith propsOptional enter := by
  induction properties with
  | nil => rfl
  | cons property rest ih =>
    simp only [fieldsWith, ih, List.mapM_cons, map_eq_pure_bind, bind_assoc, pure_bind]

end Schema

def Keywords.objectWith (propsOptional : Bool) (enter : String → MappingOn σ String)
    (content : Keywords Schema) : MappingOn σ TypeExpr := do
  let fields ← Schema.fieldsWith? propsOptional enter content.required content.properties
  let values ← Schema.valuesWith propsOptional enter content.extra
  return objectType fields values

theorem Schema.typeWith_keywords (propsOptional : Bool) (enter : String → MappingOn σ String)
    (content : Keywords Schema) :
    Schema.typeWith propsOptional enter (.keywords content) =
      keywordsType content (Schema.itemsWith propsOptional enter content.items)
        (content.objectWith propsOptional enter)
        (Schema.typesWith? propsOptional enter content.allOf)
        (Schema.typesWith? propsOptional enter content.anyOf)
        (Schema.typesWith? propsOptional enter content.oneOf) := by
  cases content
  rw [Schema.typeWith]
  rfl

section Keywords
variable {propsOptional : Bool} {content : Keywords Schema}

def PartsPerform (good : σ → Prop) (enter : String → MappingOn σ String) (propsOptional : Bool)
    (content : Keywords Schema) : Prop :=
  ∀ part ∈ content.parts,
    PerformsOn good enter (part.typeWith propsOptional enter) part.steps (part.shape propsOptional)

namespace PartsPerform

variable (parts : PartsPerform good enter propsOptional content)
include parts

theorem items :
    PerformsOn good enter (Schema.itemsWith propsOptional enter content.items)
      ((content.map Schema.steps).items.getD [])
      ((content.map (Schema.shape propsOptional)).items.getD .unknown) := by
  cases found : content.items with
  | none =>
    simp only [Keywords.map, found]
    exact .done _
  | some item =>
    simp only [Keywords.map, found]
    exact parts item (content.items_subset (by simp [found]))

theorem values :
    PerformsOn good enter (Schema.valuesWith propsOptional enter content.extra)
      (content.map Schema.steps).extraPart.flatten
      (extraShape (content.map (Schema.shape propsOptional))) := by
  cases found : content.extra with
  | none =>
    simp only [Keywords.extraPart, extraShape, Keywords.map, found]
    exact .done _
  | some extra =>
    cases extra with
    | anyValue allowed =>
      simp only [Keywords.extraPart, extraShape, Keywords.map, found]
      exact .done _
    | each schema =>
      have inside : schema ∈ content.parts :=
        content.objectParts_subset (by simp [Keywords.objectParts, Keywords.extraPart, found])
      have mapped := (parts schema inside).map some
      simpa [Keywords.extraPart, extraShape, Keywords.map, found, ExtraProperties.map,
        Schema.valuesWith] using mapped

variable (names : NamesOn good enter)
include names

theorem list {schemas : Option (List Schema)} (inside : schemas.getD [] ⊆ content.parts) :
    PerformsOn good enter (Schema.typesWith? propsOptional enter schemas)
      ((schemas.getD []).map Schema.steps).flatten
      ((schemas.getD []).map (Schema.shape propsOptional)) := by
  cases schemas with
  | none => exact .done []
  | some schemas =>
    rw [Schema.typesWith?, Schema.typesWith_eq, ← List.flatMap_def]
    exact .mapM names schemas fun schema member => parts schema (inside member)

theorem fields :
    PerformsOn good enter (Schema.fieldsWith? propsOptional enter content.required content.properties)
      (((content.map Schema.steps).properties.getD []).map (·.2)).flatten
      (fieldShapes propsOptional (content.map (Schema.shape propsOptional))) := by
  cases found : content.properties with
  | none =>
    simp only [fieldShapes, Keywords.map, found]
    exact .done []
  | some properties =>
    have each : ∀ property ∈ properties, PerformsOn good enter
        ((fun type => (⟨property.1, type, isOptional propsOptional content.required property.1⟩ :
          Field)) <$> property.2.typeWith propsOptional enter) property.2.steps
        ⟨property.1, property.2.shape propsOptional,
          isOptional propsOptional content.required property.1⟩ := by
      intro property member
      have inside : property.2 ∈ content.parts := by
        apply content.objectParts_subset
        rw [Keywords.objectParts, found, Option.getD_some]
        exact List.mem_append_left _ (List.mem_map_of_mem member)
      exact (parts property.2 inside).map _
    have mapped := PerformsOn.mapM names properties each
    rw [Schema.fieldsWith?, Schema.fieldsWith_eq]
    simpa [fieldShapes, Keywords.map, found, Function.comp_def, List.flatMap_def] using mapped

theorem object :
    PerformsOn good enter (content.objectWith propsOptional enter)
      (content.map Schema.steps).objectParts.flatten
      (objectShape propsOptional (content.map (Schema.shape propsOptional))) := by
  rw [Keywords.objectParts, List.flatten_append]
  apply PerformsOn.bind names (parts.fields names)
  rw [← List.append_nil (content.map Schema.steps).extraPart.flatten]
  exact .bind names parts.values (.done _)

theorem named (name : String) :
    PerformsOn good enter
      (namedType (Schema.itemsWith propsOptional enter content.items)
        (content.objectWith propsOptional enter) name)
      (namedSteps (content.map Schema.steps) name)
      (namedShape propsOptional (content.map (Schema.shape propsOptional)) name) := by
  unfold namedType
  split
  case h_6 =>
    have item := parts.items.map TypeExpr.array
    rwa [map_eq_pure_bind] at item
  case h_7 => exact parts.object names
  case h_8 =>
    have steps : namedSteps (content.map Schema.steps) name = [.refuse name] := by
      simp only [namedSteps, *]
    rw [steps]
    exact .refused _ _
  all_goals exact .done _

theorem sibling :
    PerformsOn good enter
      (if hasSiblingObject content then some <$> content.objectWith propsOptional enter
        else pure none)
      (content.map Schema.steps).siblingParts.flatten
      (siblingShape propsOptional (content.map (Schema.shape propsOptional))) := by
  simp only [Keywords.siblingParts, siblingShape, Keywords.hasSiblingObject_map]
  split
  · exact (parts.object names).map some
  · exact .done none

omit parts in
theorem composed {variants : MappingOn σ (List TypeExpr)} {sibling : MappingOn σ (Option TypeExpr)}
    {first rest : List Step} {members : List TypeExpr} {object : Option TypeExpr}
    (alternatives : PerformsOn good enter variants first members)
    (beside : PerformsOn good enter sibling rest object) :
    PerformsOn good enter (do
        let union := TypeExpr.unionOf (← variants)
        match ← sibling with
        | some object => return .intersection [union, object]
        | none => return union)
      (first ++ rest) (besideObject (TypeExpr.unionOf members) object) := by
  apply PerformsOn.bind names alternatives
  rw [← List.append_nil rest]
  apply PerformsOn.bind names beside
  cases object <;> exact .done _

theorem decided :
    PerformsOn good enter
      (decidedType content (Schema.itemsWith propsOptional enter content.items)
        (content.objectWith propsOptional enter)
        (Schema.typesWith? propsOptional enter content.allOf)
        (Schema.typesWith? propsOptional enter content.anyOf)
        (Schema.typesWith? propsOptional enter content.oneOf))
      (keywordsSteps (content.map Schema.steps))
      (decidedShape propsOptional (content.map (Schema.shape propsOptional))) := by
  -- The keyword that decides selects one branch of the mapping, of the steps and of the shape.
  have decides := content.decides_decision
  unfold keywordsSteps Keywords.visited decidedShape
  simp only [Keywords.decision_map]
  generalize content.decision = decision at decides
  cases decides with
  | constant constant =>
    simp only [decidedType, constant, Decision.map]
    exact .done _
  | allOf noConstant allOf =>
    have members := parts.list names content.allOf_subset
    simp only [allOf, Option.getD_some] at members
    simp only [decidedType, noConstant, allOf, Decision.map, Option.isSome_some, if_true,
      List.flatten_append]
    apply PerformsOn.bind names members
    rw [← List.append_nil (content.map Schema.steps).siblingParts.flatten]
    exact .bind names (parts.sibling names) (.done _)
  | anyOf noConstant noAllOf anyOf =>
    have members := parts.list names content.anyOf_subset
    simp only [anyOf, Option.getD_some] at members
    simp only [decidedType, noConstant, noAllOf, anyOf, Decision.map, Option.isSome_some,
      Option.isSome_none, if_true, Bool.false_eq_true, if_false, List.flatten_append]
    exact composed names members (parts.sibling names)
  | oneOf noConstant noAllOf noAnyOf oneOf =>
    have members := parts.list names content.oneOf_subset
    simp only [oneOf, Option.getD_some] at members
    simp only [decidedType, noConstant, noAllOf, noAnyOf, oneOf, Decision.map, Option.isSome_some,
      Option.isSome_none, if_true, Bool.false_eq_true, if_false, List.flatten_append]
    exact composed names members (parts.sibling names)
  | enumeration noConstant noAllOf noAnyOf noOneOf enumeration =>
    simp only [decidedType, noConstant, noAllOf, noAnyOf, noOneOf, enumeration, Decision.map,
      Option.isSome_none, Bool.false_eq_true, if_false]
    exact .done _
  | @types types noConstant noAllOf noAnyOf noOneOf noEnumeration found =>
    simp only [decidedType, noConstant, noAllOf, noAnyOf, noOneOf, noEnumeration, found,
      Decision.map, Option.isSome_none, Bool.false_eq_true, if_false]
    cases types with
    | one name =>
      simp only [TypeNames.toList, List.flatMap_cons, List.flatMap_nil, List.append_nil]
      exact parts.named names name
    | several typeNames =>
      rw [TypeNames.toList, ← List.append_nil (typeNames.flatMap _)]
      have mapped := PerformsOn.mapM names typeNames fun name _ => parts.named names name
      exact .bind names mapped (.done _)
  | object noConstant noAllOf noAnyOf noOneOf noEnumeration noTypes objectKeywords =>
    simp only [decidedType, noConstant, noAllOf, noAnyOf, noOneOf, noEnumeration, noTypes,
      objectKeywords, Decision.map, Option.isSome_none, Bool.false_eq_true, if_false, if_true]
    exact parts.object names
  | items noConstant noAllOf noAnyOf noOneOf noEnumeration noTypes noObject found =>
    have item := parts.items.map TypeExpr.array
    simp only [map_eq_pure_bind, Keywords.map, found, Option.map_some, Option.getD_some] at item
    simp only [decidedType, noConstant, noAllOf, noAnyOf, noOneOf, noEnumeration, noTypes,
      noObject, found, Decision.map, Option.isSome_none, Option.isSome_some, Bool.false_eq_true,
      if_false, if_true, List.flatten_cons, List.flatten_nil, List.append_nil]
    exact item
  | nothing noConstant noAllOf noAnyOf noOneOf noEnumeration noTypes noObject noItems =>
    simp only [decidedType, noConstant, noAllOf, noAnyOf, noOneOf, noEnumeration, noTypes,
      noObject, noItems, Decision.map, Option.isSome_none, Bool.false_eq_true, if_false]
    exact .done _

theorem keywords :
    PerformsOn good enter (Schema.typeWith propsOptional enter (.keywords content))
      (keywordsSteps (content.map Schema.steps))
      (keywordsShape propsOptional (content.map (Schema.shape propsOptional))) := by
  rw [Schema.typeWith_keywords, keywordsType, ← List.append_nil (keywordsSteps _)]
  apply PerformsOn.bind names (parts.decided names)
  unfold keywordsShape
  cases found : content.nullable <;> simp only [Keywords.map, found] <;> exact .done _

end PartsPerform

end Keywords

/-- Mapping a schema performs its steps and gives its shape, whatever entering a reference does. -/
theorem Schema.performs (propsOptional : Bool) (names : NamesOn good enter) (schema : Schema) :
    PerformsOn good enter (schema.typeWith propsOptional enter) schema.steps
      (schema.shape propsOptional) := by
  induction schema using Schema.induction with
  | reference target =>
    rw [Schema.typeWith, Schema.steps, Schema.shape, Schema.fold_reference, Schema.fold_reference]
    exact .entered names target TypeExpr.reference
  | keywords content ih =>
    rw [Schema.steps, Schema.shape, Schema.fold_keywords, Schema.fold_keywords]
    exact PartsPerform.keywords ih names

end TypedClient.OpenApi
