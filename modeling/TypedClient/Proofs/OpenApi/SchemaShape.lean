import TypedClient.Proofs.OpenApi.SchemaTree

/-! What a schema alone says about its mapping: the part of it that decides, the
type it is given, and the references that are met on the way, in order.

Nothing here knows a document or a registry. A reference has the type name of its
text, and whether it leads anywhere is left open.
-/

set_option autoImplicit false

namespace TypedClient.OpenApi

open TypeScript (Field TypeExpr)

variable {σ : Type}

inductive Decision (σ : Type) where
  | constant (value : Json.Value)
  | all (members : List σ)
  | variants (members : List σ)
  | enumeration (values : List Json.Value)
  | types (names : List String)
  | object
  | items (item : σ)
  | nothing

def Decision.map {τ : Type} (f : σ → τ) : Decision σ → Decision τ
  | .constant value => .constant value
  | .all members => .all (members.map f)
  | .variants members => .variants (members.map f)
  | .enumeration values => .enumeration values
  | .types names => .types names
  | .object => .object
  | .items item => .items (f item)
  | .nothing => .nothing

def TypeNames.toList : TypeNames → List String
  | .one name => [name]
  | .several names => names

namespace Keywords

/-- The first of constant, allOf, anyOf, oneOf, enumeration and type that is there; without any of
them the object keywords, then the items. -/
def decision (content : Keywords σ) : Decision σ :=
  match content.constant, content.allOf, content.anyOf <|> content.oneOf, content.enumeration,
    content.types with
  | some value, _, _, _, _ => .constant value
  | none, some members, _, _, _ => .all members
  | none, none, some members, _, _ => .variants members
  | none, none, none, some values, _ => .enumeration values
  | none, none, none, none, some types => .types types.toList
  | none, none, none, none, none =>
    if content.properties.isSome || content.extra.isSome then .object
    else match content.items with
      | some item => .items item
      | none => .nothing

/-- The keywords that stand behind a decision, with the absence of those before them. -/
inductive Decides (content : Keywords σ) : Decision σ → Prop where
  | constant {value : Json.Value} : content.constant = some value → Decides content (.constant value)
  | allOf {members : List σ} : content.constant = none → content.allOf = some members →
      Decides content (.all members)
  | anyOf {members : List σ} : content.constant = none → content.allOf = none →
      content.anyOf = some members → Decides content (.variants members)
  | oneOf {members : List σ} : content.constant = none → content.allOf = none →
      content.anyOf = none → content.oneOf = some members → Decides content (.variants members)
  | enumeration {values : List Json.Value} : content.constant = none → content.allOf = none →
      content.anyOf = none → content.oneOf = none → content.enumeration = some values →
      Decides content (.enumeration values)
  | types {types : TypeNames} : content.constant = none → content.allOf = none →
      content.anyOf = none → content.oneOf = none → content.enumeration = none →
      content.types = some types → Decides content (.types types.toList)
  | object : content.constant = none → content.allOf = none → content.anyOf = none →
      content.oneOf = none → content.enumeration = none → content.types = none →
      (content.properties.isSome || content.extra.isSome) = true → Decides content .object
  | items {item : σ} : content.constant = none → content.allOf = none → content.anyOf = none →
      content.oneOf = none → content.enumeration = none → content.types = none →
      (content.properties.isSome || content.extra.isSome) = false → content.items = some item →
      Decides content (.items item)
  | nothing : content.constant = none → content.allOf = none → content.anyOf = none →
      content.oneOf = none → content.enumeration = none → content.types = none →
      (content.properties.isSome || content.extra.isSome) = false → content.items = none →
      Decides content .nothing

theorem decides_decision (content : Keywords σ) : content.Decides content.decision := by
  rcases content with
    ⟨types, properties, required, items, enumeration, anyOf, oneOf, allOf, extra, constant, nullable⟩
  -- The keywords are opened in the order in which they are asked.
  rcases constant with _ | value
  rcases allOf with _ | members
  rcases anyOf with _ | members
  rcases oneOf with _ | members
  rcases enumeration with _ | values
  rcases types with _ | types
  · cases objectKeywords : properties.isSome || extra.isSome with
    | true =>
      simp only [decision, objectKeywords]
      exact .object rfl rfl rfl rfl rfl rfl objectKeywords
    | false =>
      rcases items with _ | item
      · simp only [decision, objectKeywords]
        exact .nothing rfl rfl rfl rfl rfl rfl objectKeywords rfl
      · simp only [decision, objectKeywords]
        exact .items rfl rfl rfl rfl rfl rfl objectKeywords rfl
  · exact .types rfl rfl rfl rfl rfl rfl
  · exact .enumeration rfl rfl rfl rfl rfl
  · exact .oneOf rfl rfl rfl rfl
  · exact .anyOf rfl rfl rfl
  · exact .allOf rfl rfl
  · exact .constant rfl

theorem decision_map {τ : Type} (f : σ → τ) (content : Keywords σ) :
    (content.map f).decision = content.decision.map f := by
  have decides := content.decides_decision
  generalize content.decision = decision at decides
  cases decides <;> simp_all [Keywords.decision, map, Decision.map]

theorem hasSiblingObject_map {τ : Type} (f : σ → τ) (content : Keywords σ) :
    hasSiblingObject (content.map f) = hasSiblingObject content := by
  unfold hasSiblingObject
  rcases found : content.extra with _ | (allowed | values) <;>
    simp [map, found, ExtraProperties.map]

def siblingParts (content : Keywords σ) : List σ :=
  if hasSiblingObject content then content.objectParts else []

def namedParts (content : Keywords σ) : String → List σ
  | "array" => content.items.toList
  | "object" => content.objectParts
  | _ => []

def visited (content : Keywords σ) : List σ :=
  match content.decision with
  | .constant _ => []
  | .all members => members ++ content.siblingParts
  | .variants members => members ++ content.siblingParts
  | .enumeration _ => []
  | .types names => names.flatMap content.namedParts
  | .object => content.objectParts
  | .items item => [item]
  | .nothing => []

theorem namedParts_subset (content : Keywords σ) (name : String) :
    content.namedParts name ⊆ content.parts := by
  unfold namedParts
  split
  · exact content.items_subset
  · exact content.objectParts_subset
  · exact List.nil_subset _

theorem siblingParts_subset (content : Keywords σ) : content.siblingParts ⊆ content.parts := by
  unfold siblingParts
  split
  · exact content.objectParts_subset
  · exact List.nil_subset _

theorem visited_subset (content : Keywords σ) : content.visited ⊆ content.parts := by
  have allOf := content.allOf_subset
  have anyOf := content.anyOf_subset
  have oneOf := content.oneOf_subset
  have decides := content.decides_decision
  -- A decision names the keyword that it comes from, whose parts are among all parts.
  unfold visited
  generalize content.decision = decision at decides
  cases decides with
  | constant => exact List.nil_subset _
  | allOf _ found =>
    rw [found, Option.getD_some] at allOf
    exact List.append_subset.mpr ⟨allOf, content.siblingParts_subset⟩
  | anyOf _ _ found =>
    rw [found, Option.getD_some] at anyOf
    exact List.append_subset.mpr ⟨anyOf, content.siblingParts_subset⟩
  | oneOf _ _ _ found =>
    rw [found, Option.getD_some] at oneOf
    exact List.append_subset.mpr ⟨oneOf, content.siblingParts_subset⟩
  | enumeration => exact List.nil_subset _
  | types =>
    intro part member
    obtain ⟨name, _, inside⟩ := List.mem_flatMap.mp member
    exact content.namedParts_subset name inside
  | object => exact content.objectParts_subset
  | items _ _ _ _ _ _ _ found =>
    intro part member
    apply content.items_subset
    rw [found, Option.mem_toList, List.mem_singleton.mp member]
  | nothing => exact List.nil_subset _

section Map
variable {τ : Type} (f : σ → τ) (content : Keywords σ)

theorem objectParts_map : (content.map f).objectParts = content.objectParts.map f := by
  unfold objectParts extraPart
  rcases properties : content.properties with _ | members <;>
    rcases extra : content.extra with _ | (allowed | values) <;>
    simp [map, properties, extra, ExtraProperties.map, Function.comp_def]

theorem siblingParts_map : (content.map f).siblingParts = content.siblingParts.map f := by
  unfold siblingParts
  rw [hasSiblingObject_map, objectParts_map]
  split <;> rfl

theorem namedParts_map :
    (content.map f).namedParts = fun name => (content.namedParts name).map f := by
  funext name
  unfold namedParts
  split
  · cases found : content.items <;> simp [map, found]
  · exact content.objectParts_map f
  · rfl

theorem visited_map : (content.map f).visited = content.visited.map f := by
  unfold visited
  rw [decision_map]
  cases content.decision <;>
    simp [Decision.map, siblingParts_map, namedParts_map, objectParts_map, List.map_flatMap]

end Map

end Keywords

/-- A step of mapping a schema: a reference is met, or a type name is not known. -/
inductive Step where
  | meet (reference : String)
  | refuse (name : String)
  deriving DecidableEq, Repr

def namedSteps (content : Keywords (List Step)) : String → List Step
  | "string" => []
  | "integer" => []
  | "number" => []
  | "boolean" => []
  | "null" => []
  | "array" => content.items.getD []
  | "object" => content.objectParts.flatten
  | other => [.refuse other]

def keywordsSteps (content : Keywords (List Step)) : List Step :=
  match content.decision with
  | .types names => names.flatMap (namedSteps content)
  | _ => content.visited.flatten

/-- The steps of mapping a schema, those of referenced components apart. -/
def Schema.steps : Schema → List Step := Schema.fold (fun target => [.meet target]) keywordsSteps

def besideObject (union : TypeExpr) : Option TypeExpr → TypeExpr
  | some object => .intersection [union, object]
  | none => union

def typeNames : List String :=
  ["string", "integer", "number", "boolean", "null", "array", "object"]

section Steps
variable {step : Step}

theorem mem_namedSteps {content : Keywords (List Step)} {name : String} :
    step ∈ namedSteps content name ↔
      step ∈ (content.namedParts name).flatten ∨ name ∉ typeNames ∧ step = .refuse name := by
  unfold namedSteps Keywords.namedParts
  split
  case h_6 => cases content.items <;> simp [typeNames]
  case h_8 =>
    have unknown : name ∉ typeNames := by
      simp only [typeNames, List.mem_cons, List.not_mem_nil, or_false, not_or]
      and_intros <;> assumption
    simp [*]
  all_goals simp [typeNames]

theorem mem_keywordsSteps {content : Keywords (List Step)} :
    step ∈ keywordsSteps content ↔ step ∈ content.visited.flatten ∨
      ∃ names, content.decision = .types names ∧ ∃ name ∈ names, name ∉ typeNames ∧
        step = .refuse name := by
  unfold keywordsSteps
  split
  case h_1 names decided =>
    simp only [Keywords.visited, decided, List.mem_flatMap, mem_namedSteps, List.mem_flatten,
      Decision.types.injEq, exists_eq_left']
    grind
  case h_2 other =>
    refine (or_iff_left ?_).symm
    rintro ⟨names, decided, _⟩
    exact other names decided

theorem Decision.map_eq_types_iff {σ τ : Type} {f : σ → τ} {decision : Decision σ}
    {names : List String} : decision.map f = .types names ↔ decision = .types names := by
  cases decision <;> simp [map]

/-- The steps of keywords are those of the parts that are mapped, and refusals of unknown names. -/
theorem Schema.mem_steps_keywords {content : Keywords Schema} :
    step ∈ (Schema.keywords content).steps ↔ (∃ part ∈ content.visited, step ∈ part.steps) ∨
      ∃ names, content.decision = .types names ∧ ∃ name ∈ names, name ∉ typeNames ∧
        step = .refuse name := by
  rw [steps, fold_keywords, mem_keywordsSteps, Keywords.visited_map, ← List.flatMap_def,
    List.mem_flatMap, Keywords.decision_map]
  simp only [Decision.map_eq_types_iff]

theorem Schema.meet_mem_steps_keywords {content : Keywords Schema} {reference : String} :
    .meet reference ∈ (Schema.keywords content).steps ↔
      ∃ part ∈ content.visited, .meet reference ∈ part.steps := by
  rw [mem_steps_keywords]
  refine or_iff_left ?_
  rintro ⟨_, _, _, _, _, ⟨⟩⟩

end Steps

theorem Schema.meet_mem_steps_reference {target reference : String} :
    .meet reference ∈ (Schema.reference target).steps ↔ reference = target := by
  simp [steps]

section Shape
variable (propsOptional : Bool)

def fieldShapes (content : Keywords TypeExpr) : List Field :=
  (content.properties.getD []).map fun property =>
    ⟨property.1, property.2, isOptional propsOptional content.required property.1⟩

def extraShape (content : Keywords TypeExpr) : Option TypeExpr :=
  match content.extra with
  | none => none
  | some (.anyValue allowed) => if allowed then some .unknown else none
  | some (.each type) => some type

def objectShape (content : Keywords TypeExpr) : TypeExpr :=
  objectType (fieldShapes propsOptional content) (extraShape content)

def siblingShape (content : Keywords TypeExpr) : Option TypeExpr :=
  if hasSiblingObject content then some (objectShape propsOptional content) else none

/-- The type of a name in the `type` keyword; any where the name is not known. -/
def namedShape (content : Keywords TypeExpr) : String → TypeExpr
  | "string" => .string
  | "integer" => .number
  | "number" => .number
  | "boolean" => .boolean
  | "null" => .null
  | "array" => .array (content.items.getD .unknown)
  | "object" => objectShape propsOptional content
  | _ => .unknown

def decidedShape (content : Keywords TypeExpr) : TypeExpr :=
  match content.decision with
  | .constant value => literalType value
  | .all members => allOfType (members ++ (siblingShape propsOptional content).toList)
  | .variants members => besideObject (TypeExpr.unionOf members) (siblingShape propsOptional content)
  | .enumeration values => TypeExpr.unionOf (values.map literalType)
  | .types names => TypeExpr.unionOf (names.map (namedShape propsOptional content))
  | .object => objectShape propsOptional content
  | .items item => .array item
  | .nothing => .unknown

def keywordsShape (content : Keywords TypeExpr) : TypeExpr :=
  if content.nullable then TypeExpr.unionOf [decidedShape propsOptional content, .null]
  else decidedShape propsOptional content

/-- The type of a schema whose mapping succeeds. -/
def Schema.shape : Schema → TypeExpr :=
  Schema.fold (fun target => .reference (referenceTypeName target)) (keywordsShape propsOptional)

end Shape

end TypedClient.OpenApi
