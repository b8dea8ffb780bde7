import TypedClient.Proofs.OpenApi.Reachability

/-! Which schemas can be mapped.

A schema can be mapped if everything that its mapping comes to is sound: references lead
to components, and the type names that decide are known. A walk from the empty registry
succeeds if its steps come of such schemas; it visits each component once, yet leaves no
unsound one unnoticed.
-/

set_option autoImplicit false

namespace TypedClient.OpenApi

namespace Document

/-- The schemas that the mapping of a schema comes to, through the parts that are mapped and through
components. -/
inductive Visits (document : Document) : Schema → Schema → Prop where
  | self {schema : Schema} : Visits document schema schema
  | part {content : Keywords Schema} {part other : Schema} :
      part ∈ content.visited → Visits document part other → Visits document (.keywords content) other
  | component {reference : String} {target other : Schema} :
      document.schemaAt? reference = some target → Visits document target other →
      Visits document (.reference reference) other

variable (document : Document)

/-- A reference to a component, or keywords that consult no unknown type name. -/
def Sound : Schema → Prop
  | .reference target => ∃ component, document.schemaAt? target = some component
  | .keywords content =>
    ∀ names, content.decision = .types names → ∀ name ∈ names, name ∈ typeNames

def Mappable (schema : Schema) : Prop := ∀ other, document.Visits schema other → document.Sound other

variable {document}

theorem mappable_reference_iff {reference : String} :
    document.Mappable (.reference reference) ↔
      ∃ target, document.schemaAt? reference = some target ∧ document.Mappable target := by
  constructor
  · intro mappable
    obtain ⟨target, resolved⟩ := mappable _ .self
    exact ⟨target, resolved, fun other visits => mappable other (.component resolved visits)⟩
  · rintro ⟨target, resolved, mappable⟩ other visits
    cases visits with
    | self => exact ⟨target, resolved⟩
    | component same visits =>
      rw [resolved] at same
      cases same
      exact mappable other visits

theorem mappable_keywords_iff {content : Keywords Schema} :
    document.Mappable (.keywords content) ↔
      document.Sound (.keywords content) ∧ ∀ part ∈ content.visited, document.Mappable part := by
  constructor
  · intro mappable
    exact ⟨mappable _ .self, fun part visited other visits => mappable other (.part visited visits)⟩
  · rintro ⟨sound, parts⟩ other visits
    cases visits with
    | self => exact sound
    | part visited visits => exact parts _ visited other visits

end Document

/-- A reference that can be mapped; never a type name that is not known. -/
def Step.Mappable (document : Document) : Step → Prop
  | .meet reference => document.Mappable (.reference reference)
  | .refuse _ => False

namespace Document

variable {document : Document} {propsOptional : Bool}

theorem mappable_iff {schema : Schema} :
    document.Mappable schema ↔ ∀ step ∈ schema.steps, step.Mappable document := by
  induction schema using Schema.induction with
  | reference target => simp [Schema.steps, Step.Mappable]
  | keywords content ih =>
    rw [mappable_keywords_iff]
    constructor
    · rintro ⟨sound, parts⟩ step member
      rcases Schema.mem_steps_keywords.mp member with ⟨part, visited, inside⟩ |
        ⟨names, decided, name, listed, unknown, _⟩
      · exact (ih part (content.visited_subset visited)).mp (parts part visited) step inside
      · exact absurd (sound names decided name listed) unknown
    · intro each
      constructor
      · intro names decided name listed
        by_contra unknown
        exact each (.refuse name)
          (Schema.mem_steps_keywords.mpr (.inr ⟨names, decided, name, listed, unknown, rfl⟩))
      · intro part visited
        refine (ih part (content.visited_subset visited)).mpr fun step inside => ?_
        exact each step (Schema.mem_steps_keywords.mpr (.inl ⟨part, visited, inside⟩))

/-- Whatever is known at its start, a walk through steps that can be mapped succeeds. -/
theorem Walk.ok_of_mappable {steps : List Step} {registry final : Registry}
    {outcome : Except Fault Unit} (walk : document.Walk propsOptional steps registry outcome final)
    (mappable : ∀ step ∈ steps, step.Mappable document) : outcome = .ok () := by
  induction walk with
  | done => rfl
  | refused => exact (mappable _ List.mem_cons_self).elim
  | known _ _ ih => exact ih fun step member => mappable step (List.mem_cons_of_mem _ member)
  | missing _ unresolved =>
    obtain ⟨target, resolved, _⟩ := mappable_reference_iff.mp (mappable _ List.mem_cons_self)
    rw [unresolved] at resolved
    cases resolved
  | broken _ resolved _ ih =>
    -- The component of a reference that can be mapped can be mapped too.
    obtain ⟨target, same, below⟩ := mappable_reference_iff.mp (mappable _ List.mem_cons_self)
    rw [resolved] at same
    cases same
    cases ih (mappable_iff.mp below)
  | entered _ _ _ _ _ ih =>
    exact ih fun step member => mappable step (List.mem_cons_of_mem _ member)

theorem mappable_of_settled {known : List String} (settled : document.Settled known)
    {schema : Schema} (within : ∀ step ∈ schema.steps, step.Within known) :
    document.Mappable schema := by
  -- What is visited has its steps within the settled references as well.
  intro other visits
  induction visits with
  | @self schema =>
    cases schema with
    | reference target =>
      obtain ⟨component, resolved, _⟩ :=
        settled target (within (.meet target) (Schema.meet_mem_steps_reference.mpr rfl))
      exact ⟨component, resolved⟩
    | keywords content =>
      intro names decided name listed
      by_contra unknown
      exact within (.refuse name)
        (Schema.mem_steps_keywords.mpr (.inr ⟨names, decided, name, listed, unknown, rfl⟩))
  | part visited _ ih =>
    exact ih fun step inside =>
      within step (Schema.mem_steps_keywords.mpr (.inl ⟨_, visited, inside⟩))
  | component resolved _ ih =>
    have member := within (.meet _) (Schema.meet_mem_steps_reference.mpr rfl)
    exact ih (settled.within member resolved)

/-- A walk from the empty registry succeeds if all its steps can be mapped, and only then. -/
theorem Walk.ok_iff {steps : List Step} {final : Registry} {outcome : Except Fault Unit}
    (walk : document.Walk propsOptional steps [] outcome final) :
    outcome = .ok () ↔ ∀ step ∈ steps, step.Mappable document := by
  constructor
  · rintro rfl step member
    -- A component that is known is not entered again, but it was settled when it was.
    have settled := (Complete.empty.walk walk).settled
    have within := walk.settles.1 step member
    cases step with
    | refuse name => exact within
    | meet reference =>
      refine mappable_of_settled settled fun other met => ?_
      simp only [Schema.steps, Schema.fold_reference, List.mem_singleton] at met
      rw [met]
      exact within
  · exact walk.ok_of_mappable

end Document

end TypedClient.OpenApi
