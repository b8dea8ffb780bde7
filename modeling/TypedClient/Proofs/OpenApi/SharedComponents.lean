import TypedClient.Proofs.OpenApi.Buildable

/-! Documents with the same components as far as schemas lead.

Mapping looks at no component that it does not come to. Where two documents agree on every
reference that the schemas of an operation reach, mapping the operation takes the same walk
in both, with the same fault or the same types, and leaves the same registry.
-/

set_option autoImplicit false

namespace TypedClient.OpenApi

open TypeScript (TypeExpr)

namespace Document

/-- Both documents have the same component at every reference that the schema reaches. -/
def Shares (left right : Document) (schema : Schema) : Prop :=
  ∀ reference, left.Reaches schema reference →
    left.schemaAt? reference = right.schemaAt? reference

variable {left right : Document} {propsOptional : Bool}

namespace Shares

variable {schema target : Schema} {reference : String}

theorem of_met (shares : left.Shares right schema) (met : .meet reference ∈ schema.steps) :
    left.Shares right (.reference reference) :=
  fun other reaches => shares other (reaches_of_meet met reaches)

theorem lookup (shares : left.Shares right (.reference reference)) :
    left.schemaAt? reference = right.schemaAt? reference :=
  shares reference .met

theorem component (shares : left.Shares right (.reference reference))
    (resolved : left.schemaAt? reference = some target) : left.Shares right target :=
  fun other reaches => shares other (.component resolved reaches)

end Shares

/-- Walks through the same steps are the same where the documents share what the steps come to. -/
theorem Walk.same_of_shares {steps : List Step} {registry final otherFinal : Registry}
    {outcome other : Except Fault Unit}
    (walk : left.Walk propsOptional steps registry outcome final)
    (beside : right.Walk propsOptional steps registry other otherFinal)
    (shares : ∀ reference, .meet reference ∈ steps → left.Shares right (.reference reference)) :
    outcome = other ∧ final = otherFinal := by
  -- Which case a step is in depends on the registry and on the component that it leads to. Both are
  -- shared, and what is met inside a component is reached through it.
  induction walk generalizing other otherFinal with
  | done =>
    cases beside
    exact ⟨rfl, rfl⟩
  | refused =>
    cases beside
    exact ⟨rfl, rfl⟩
  | known old _ ih =>
    exact ih (beside.of_known old) fun reference met => shares reference (List.mem_cons_of_mem _ met)
  | missing fresh absent =>
    rw [(shares _ List.mem_cons_self).lookup] at absent
    obtain ⟨rfl, rfl⟩ := beside.of_missing fresh absent
    exact ⟨rfl, rfl⟩
  | broken fresh resolved _ ih =>
    have here := shares _ List.mem_cons_self
    have inside := fun other (met : Step.meet other ∈ _) => (here.component resolved).of_met met
    rw [here.lookup] at resolved
    rcases beside.of_entering fresh resolved with ⟨_, rfl, walk⟩ | ⟨_, walk, _⟩
    · exact ih walk inside
    · cases (ih walk inside).1
  | entered fresh resolved _ _ ihTarget ihRest =>
    have here := shares _ List.mem_cons_self
    have inside := fun other (met : Step.meet other ∈ _) => (here.component resolved).of_met met
    rw [here.lookup] at resolved
    rcases beside.of_entering fresh resolved with ⟨_, rfl, walk⟩ | ⟨_, walk, rest⟩
    · cases (ihTarget walk inside).1
    · obtain ⟨_, rfl⟩ := ihTarget walk inside
      exact ihRest rest fun reference met => shares reference (List.mem_cons_of_mem _ met)

end Document

namespace Mapping

variable {α β γ : Type}

/-- From a registry whose names are in order both mappings end alike, and leave such a registry. -/
def Agree (first second : Mapping α) : Prop :=
  ∀ registry, registry.Named →
    first.outcome registry = second.outcome registry ∧ (first.outcome registry).2.Named

namespace Agree

theorem done (value : α) : Agree (pure value) (pure value) := fun _ named => ⟨rfl, named⟩

theorem get : Agree get get := fun _ named => ⟨rfl, named⟩

theorem bind {first second : Mapping α} {next other : α → Mapping β} (agree : Agree first second)
    (after : ∀ value, Agree (next value) (other value)) :
    Agree (first >>= next) (second >>= other) := by
  intro registry named
  obtain ⟨same, kept⟩ := agree registry named
  rw [MappingOn.outcome_bind, MappingOn.outcome_bind, ← same]
  rcases mapped : first.outcome registry with ⟨fault | value, middle⟩
  · rw [mapped] at kept
    exact ⟨rfl, kept⟩
  · rw [mapped] at kept
    exact after value middle kept

theorem map {first second : Mapping α} (agree : Agree first second) (f : α → β) :
    Agree (f <$> first) (f <$> second) := by
  rw [map_eq_pure_bind, map_eq_pure_bind]
  exact agree.bind fun value => done (f value)

theorem mapM {f g : γ → Mapping α} {items : List γ} (each : ∀ item ∈ items, Agree (f item) (g item)) :
    Agree (items.mapM f) (items.mapM g) := by
  induction items with
  | nil => exact done []
  | cons item rest ih =>
    have tail := ih fun other member => each other (List.mem_cons_of_mem item member)
    rw [List.mapM_cons, List.mapM_cons]
    exact (each item List.mem_cons_self).bind fun value => tail.bind fun values => done (value :: values)

end Agree

end Mapping

open Mapping (Agree)

section Schemas
variable {left right : Document} {propsOptional : Bool}

theorem Document.Shares.typeOf {schema : Schema} (shares : left.Shares right schema) :
    Agree (left.typeOf propsOptional schema) (right.typeOf propsOptional schema) := by
  intro registry named
  obtain ⟨outcome, final, walk, mapped⟩ := left.typeOf_walk schema registry named
  obtain ⟨other, otherFinal, beside, mappedBeside⟩ := right.typeOf_walk schema registry named
  obtain ⟨rfl, rfl⟩ := walk.same_of_shares beside fun _ => shares.of_met
  rw [mapped, mappedBeside]
  exact ⟨rfl, walk.named named⟩

theorem agree_typeOf? {schema : Option Schema}
    (shares : ∀ given, schema = some given → left.Shares right given) :
    Agree (left.typeOf? propsOptional schema) (right.typeOf? propsOptional schema) := by
  cases schema with
  | none => exact .done _
  | some given => exact (shares given rfl).typeOf

end Schemas

section Operation
variable {left right : Document} {settings : Settings} {operation : Operation}

theorem agree_parameterFields {parameters : List Parameter}
    (shares : ∀ parameter ∈ parameters, ∀ schema, parameter.schema = some schema →
      left.Shares right schema) :
    Agree (parameters.mapM (parameterField left settings))
      (parameters.mapM (parameterField right settings)) :=
  .mapM fun parameter member => (agree_typeOf? (shares parameter member)).bind fun _ => .done _

theorem agree_bodyShape
    (shares : ∀ schema, operation.bodySchema? = some schema → left.Shares right schema) :
    Agree (bodyShape left settings operation) (bodyShape right settings operation) := by
  unfold bodyShape
  rcases found : operation.requestBody with _ | ⟨required, _ | ⟨⟨mediaType, schema⟩, rest⟩⟩
  · exact .done _
  · exact .done _
  · by_cases multipart : isMultipart mediaType = true
    case pos =>
      simp only [if_pos multipart]
      exact .done _
    case neg =>
      simp only [Operation.bodySchema?, found, if_neg multipart] at shares
      simp only [if_neg multipart]
      exact (agree_typeOf? shares).bind fun _ => Agree.get.bind fun _ => .done _

theorem agree_groupField {group : Location × String}
    (shares : ∀ parameter ∈ operation.parametersIn group.1, ∀ schema,
      parameter.schema = some schema → left.Shares right schema) :
    Agree (groupField left settings operation group) (groupField right settings operation group) := by
  refine (agree_parameterFields shares).bind fun fields => ?_
  split
  · exact .done _
  · exact .done _

variable (shares : ∀ schema, operation.Uses settings schema → left.Shares right schema)
include shares

theorem agree_requestShape :
    Agree (requestShape left settings operation) (requestShape right settings operation) := by
  have parameters : ∀ parameter ∈ operation.mappedParameters settings, ∀ schema,
      parameter.schema = some schema → left.Shares right schema :=
    fun parameter member schema given => shares schema (.parameter (mem_mappedParameters_iff.mp member) given)
  have body : Agree (bodyShape left settings operation) (bodyShape right settings operation) := by
    refine agree_bodyShape fun schema given => ?_
    obtain ⟨body, mediaType, rest, found, content, single⟩ := Operation.bodySchema?_eq_some_iff.mp given
    exact shares schema (.body found content single)
  refine body.bind fun body => ?_
  -- Either way of laying out the argument maps just these parameters.
  unfold Operation.mappedParameters at parameters
  by_cases full : settings.fullRequest = true
  case pos =>
    rw [if_pos full] at parameters
    rw [if_pos full, if_pos full]
    refine (Agree.mapM fun group member => agree_groupField fun parameter inside => ?_).bind fun _ => .done _
    exact parameters parameter (List.mem_flatMap.mpr ⟨group, member, inside⟩)
  case neg =>
    rw [if_neg full] at parameters
    rw [if_neg full, if_neg full]
    refine (agree_parameterFields parameters).bind fun fields => ?_
    cases body with
    | none => exact .done _
    | some shape => exact .done _

theorem agree_responseAlternatives :
    Agree (responseAlternatives left settings.propsOptional settings.fullResponse operation)
      (responseAlternatives right settings.propsOptional settings.fullResponse operation) := by
  refine Agree.bind (.mapM fun classified member => ?_) fun _ => .done _
  obtain ⟨key, listed, status⟩ := Operation.mem_classified_iff.mp member
  refine (agree_typeOf? fun schema given => ?_).bind fun _ => .done _
  exact shares schema (.response listed status given)

/-- An operation has the same model in documents that share what its types are made of. -/
theorem agree_operationModel :
    Agree (operationModel left settings operation) (operationModel right settings operation) :=
  (agree_requestShape shares).bind fun _ =>
    (agree_responseAlternatives shares).bind fun _ => .done _

end Operation

end TypedClient.OpenApi
