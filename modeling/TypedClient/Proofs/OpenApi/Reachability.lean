import TypedClient.Proofs.OpenApi.Walk

/-! Which components a walk enters, and what it leaves in the registry.

A walk that succeeds appends one finished registration for each reference that is
reachable and new, and every reference is then settled: it resolves, and so does
everything that its component meets. Walks from two registries that differ only in
settled references end alike.
-/

set_option autoImplicit false

namespace TypedClient.OpenApi

open TypeScript (Declaration TypeExpr)

namespace Document

/-- The references that the mapping of a schema comes to, through the parts that are mapped and
through components. -/
inductive Reaches (document : Document) : Schema → String → Prop where
  | met {reference : String} : Reaches document (.reference reference) reference
  | part {content : Keywords Schema} {part : Schema} {reference : String} :
      part ∈ content.visited → Reaches document part reference →
      Reaches document (.keywords content) reference
  | component {reference other : String} {target : Schema} :
      document.schemaAt? reference = some target → Reaches document target other →
      Reaches document (.reference reference) other

variable {document : Document} {propsOptional : Bool}

theorem reaches_of_met {schema : Schema} {reference : String}
    (met : .meet reference ∈ schema.steps) : document.Reaches schema reference := by
  induction schema using Schema.induction with
  | reference target =>
    rw [Schema.meet_mem_steps_reference.mp met]
    exact .met
  | keywords content ih =>
    obtain ⟨part, visited, inside⟩ := Schema.meet_mem_steps_keywords.mp met
    exact .part visited (ih part (content.visited_subset visited) inside)

theorem reaches_of_component {schema target : Schema} {reference other : String}
    (met : .meet reference ∈ schema.steps) (resolved : document.schemaAt? reference = some target)
    (reaches : document.Reaches target other) : document.Reaches schema other := by
  induction schema using Schema.induction with
  | reference first =>
    rw [Schema.meet_mem_steps_reference.mp met] at resolved
    exact .component resolved reaches
  | keywords content ih =>
    obtain ⟨part, visited, inside⟩ := Schema.meet_mem_steps_keywords.mp met
    exact .part visited (ih part (content.visited_subset visited) inside)

/-- References that include what a schema meets, and with each what its component meets, include
all that the schema reaches. -/
theorem Reaches.mem_of_closed {known : List String} {schema : Schema} {reference : String}
    (reaches : document.Reaches schema reference)
    (closed : ∀ first ∈ known, ∀ target, document.schemaAt? first = some target →
      ∀ other, .meet other ∈ target.steps → other ∈ known)
    (start : ∀ other, .meet other ∈ schema.steps → other ∈ known) : reference ∈ known := by
  induction reaches with
  | met => exact start _ (Schema.meet_mem_steps_reference.mpr rfl)
  | part visited _ ih =>
    exact ih fun other met => start other (Schema.meet_mem_steps_keywords.mpr ⟨_, visited, met⟩)
  | component resolved _ ih =>
    have first := start _ (Schema.meet_mem_steps_reference.mpr rfl)
    exact ih (closed _ first _ resolved)

end Document

/-- A reference among the known ones; never a type name that is not known. -/
def Step.Within (known : List String) : Step → Prop
  | .meet reference => reference ∈ known
  | .refuse _ => False

theorem Step.Within.mono {known more : List String} {step : Step} (within : step.Within known)
    (grown : known ⊆ more) : step.Within more := by
  cases step with
  | meet reference => exact grown within
  | refuse name => exact within

namespace Document

/-- References whose components can be mapped without meeting any other. -/
def Settled (document : Document) (known : List String) : Prop :=
  ∀ reference ∈ known, ∃ target, document.schemaAt? reference = some target ∧
    ∀ step ∈ target.steps, step.Within known

theorem Settled.within {document : Document} {known : List String} {reference : String}
    {target : Schema} (settled : document.Settled known) (member : reference ∈ known)
    (resolved : document.schemaAt? reference = some target) :
    ∀ step ∈ target.steps, step.Within known := by
  obtain ⟨found, foundAt, within⟩ := settled reference member
  rw [resolved] at foundAt
  cases foundAt
  exact within

theorem Settled.append {document : Document} {first second : List String}
    (left : document.Settled first) (right : document.Settled second) :
    document.Settled (first ++ second) := by
  intro reference member
  rcases List.mem_append.mp member with inside | inside
  · obtain ⟨target, resolved, within⟩ := left reference inside
    exact ⟨target, resolved, fun step met => (within step met).mono (List.subset_append_left _ _)⟩
  · obtain ⟨target, resolved, within⟩ := right reference inside
    exact ⟨target, resolved, fun step met => (within step met).mono (List.subset_append_right _ _)⟩

theorem Reaches.mem_of_settled {document : Document} {known : List String} {schema : Schema}
    {reference : String} (reaches : document.Reaches schema reference)
    (settled : document.Settled known)
    (start : ∀ other, .meet other ∈ schema.steps → other ∈ known) : reference ∈ known := by
  refine reaches.mem_of_closed ?_ start
  intro first member target resolved other met
  exact settled.within member resolved _ met

variable {document : Document} {propsOptional : Bool}

theorem Walk.append {first rest : List Step} {registry middle final : Registry}
    {outcome : Except Fault Unit}
    (before : document.Walk propsOptional first registry (.ok ()) middle)
    (after : document.Walk propsOptional rest middle outcome final) :
    document.Walk propsOptional (first ++ rest) registry outcome final := by
  generalize success : (.ok () : Except Fault Unit) = result at before
  induction before with
  | done => exact after
  | refused => cases success
  | known member _ ih => exact .known member (ih after success)
  | missing => cases success
  | broken => cases success
  | entered fresh resolved inside _ _ ih => exact .entered fresh resolved inside (ih after success)

/-- After a walk every step is within the known references, and each new one is settled. -/
theorem Walk.settles {steps : List Step} {registry final : Registry}
    (walk : document.Walk propsOptional steps registry (.ok ()) final) :
    (∀ step ∈ steps, step.Within final.references) ∧
    ∀ reference ∈ final.references, reference ∉ registry.references →
      ∃ target, document.schemaAt? reference = some target ∧
        ∀ step ∈ target.steps, step.Within final.references := by
  generalize success : (.ok () : Except Fault Unit) = result at walk
  induction walk with
  | done => exact ⟨by simp, fun reference member fresh => absurd member fresh⟩
  | refused => cases success
  | missing => cases success
  | broken => cases success
  | known member walk ih =>
    obtain ⟨within, settled⟩ := ih success
    refine ⟨?_, settled⟩
    intro step inside
    rcases List.mem_cons.mp inside with rfl | inside
    · exact walk.references_subset member
    · exact within step inside
  | @entered reference rest registry inner final target outcome fresh resolved first second ihTarget
      ihRest =>
    -- A new reference is this one, was met inside its component, or comes with the rest.
    obtain ⟨withinTarget, settledTarget⟩ := ihTarget rfl
    obtain ⟨withinRest, settledRest⟩ := ihRest success
    have grown := second.references_subset
    rw [Registry.references_declare] at grown settledRest
    have entered : reference ∈ inner.references :=
      first.references_subset (by simp)
    constructor
    · intro step inside
      rcases List.mem_cons.mp inside with rfl | inside
      · exact grown entered
      · exact withinRest step inside
    · intro other member new
      by_cases known : other ∈ inner.references
      · by_cases same : other = reference
        · subst same
          exact ⟨target, resolved, fun step met => (withinTarget step met).mono grown⟩
        · have stillNew : other ∉
              (registry.register reference (referenceTypeName reference)).references := by
            simp [new, same]
          obtain ⟨found, foundAt, within⟩ := settledTarget other known stillNew
          exact ⟨found, foundAt, fun step met => (within step met).mono grown⟩
      · exact settledRest other member known

end Document

namespace Registry

variable {registry : Registry} {reference : String} {declaration : Declaration}

theorem declare_append (first rest : Registry) :
    declare (first ++ rest) reference declaration =
      first.declare reference declaration ++ rest.declare reference declaration := List.map_append

theorem declare_of_absent (absent : reference ∉ registry.references) :
    registry.declare reference declaration = registry := by
  rw [declare, List.map_congr_left, List.map_id]
  intro entry member
  have other : entry.reference ≠ reference := by
    rintro rfl
    exact absent (List.mem_map_of_mem member)
  simp [other]

end Registry

namespace Document

variable {document : Document} {propsOptional : Bool}

variable (document propsOptional) in
def registration (reference : String) : Registration :=
  ⟨reference, referenceTypeName reference, document.declarationOf propsOptional reference⟩

theorem references_registrations (references : List String) :
    Registry.references (references.map (document.registration propsOptional)) = references := by
  simp [Registry.references, registration, Function.comp_def]

/-- The declaration of an entered reference stands right behind the entries before it. -/
theorem declare_entered {registry : Registry} {reference : String} {target : Schema}
    {below : List String} (fresh : reference ∉ registry.references) (absent : reference ∉ below)
    (resolved : document.schemaAt? reference = some target) :
    Registry.declare (registry.register reference (referenceTypeName reference) ++
        below.map (document.registration propsOptional)) reference
      (componentDeclaration (referenceTypeName reference) (target.shape propsOptional)) =
      registry ++ (reference :: below).map (document.registration propsOptional) := by
  have notBelow : reference ∉
      Registry.references (below.map (document.registration propsOptional)) := by
    rwa [references_registrations]
  rw [Registry.register, Registry.declare_append, Registry.declare_append,
    Registry.declare_of_absent fresh, Registry.declare_of_absent notBelow]
  simp [Registry.declare, registration, declarationOf, resolved]

/-- What a successful walk adds to a registry. -/
theorem Walk.extends {steps : List Step} {registry final : Registry}
    (walk : document.Walk propsOptional steps registry (.ok ()) final) :
    ∃ added : List String, final = registry ++ added.map (document.registration propsOptional) ∧
      Fresh added registry.references := by
  generalize success : (.ok () : Except Fault Unit) = result at walk
  induction walk with
  | done => exact ⟨[], (List.append_nil _).symm, fresh_nil⟩
  | refused => cases success
  | missing => cases success
  | broken => cases success
  | known _ _ ih => exact ih success
  | @entered reference rest registry inner final target outcome fresh resolved _ _ ihTarget ihRest =>
    obtain ⟨below, rfl, belowFresh⟩ := ihTarget rfl
    obtain ⟨after, finalEq, afterFresh⟩ := ihRest success
    rw [Registry.references_register] at belowFresh
    have absent : reference ∉ below :=
      fun member => belowFresh.2 reference member (List.mem_append_right _ List.mem_cons_self)
    rw [declare_entered fresh absent resolved] at finalEq afterFresh
    refine ⟨reference :: below ++ after, ?_, ?_⟩
    · rw [finalEq, List.map_append, List.append_assoc]
    · -- What the rest adds is new to everything before it.
      rw [Registry.references, List.map_append, ← Registry.references, ← Registry.references,
        references_registrations] at afterFresh
      refine fresh_append.mpr ⟨fresh_cons.mpr ⟨fresh, belowFresh.mono ?_⟩, afterFresh.mono ?_⟩
      · intro other member
        simpa [or_comm] using member
      · intro other member
        simp only [List.mem_append, List.mem_reverse] at member ⊢
        exact member.symm

theorem reaches_of_meet {schema : Schema} {first other : String}
    (met : .meet first ∈ schema.steps) (reaches : document.Reaches (.reference first) other) :
    document.Reaches schema other := by
  cases reaches with
  | met => exact reaches_of_met met
  | component resolved reaches => exact reaches_of_component met resolved reaches

/-- Every new reference is reached from one that the steps meet. -/
theorem Walk.reached {steps : List Step} {registry final : Registry} {outcome : Except Fault Unit}
    (walk : document.Walk propsOptional steps registry outcome final) :
    ∀ reference ∈ final.references, reference ∈ registry.references ∨
      ∃ first, .meet first ∈ steps ∧ document.Reaches (.reference first) reference := by
  induction walk with
  | done => exact fun reference member => .inl member
  | refused => exact fun reference member => .inl member
  | missing => exact fun reference member => .inl member
  | known _ _ ih =>
    intro reference member
    rcases ih reference member with old | ⟨first, met, reaches⟩
    · exact .inl old
    · exact .inr ⟨first, List.mem_cons_of_mem _ met, reaches⟩
  | broken fresh resolved _ ih =>
    intro reference member
    rcases ih reference member with old | ⟨first, met, reaches⟩
    · rw [Registry.references_register, List.mem_append, List.mem_singleton] at old
      rcases old with old | rfl
      · exact .inl old
      · exact .inr ⟨reference, List.mem_cons_self, .met⟩
    · exact .inr ⟨_, List.mem_cons_self, .component resolved (reaches_of_meet met reaches)⟩
  -- Met in the rest, met in the component, or the component itself.
  | entered fresh resolved _ _ ihTarget ihRest =>
    intro reference member
    rcases ihRest reference member with old | ⟨first, met, reaches⟩
    · rw [Registry.references_declare] at old
      rcases ihTarget reference old with old | ⟨first, met, reaches⟩
      · rw [Registry.references_register, List.mem_append, List.mem_singleton] at old
        rcases old with old | rfl
        · exact .inl old
        · exact .inr ⟨reference, List.mem_cons_self, .met⟩
      · exact .inr ⟨_, List.mem_cons_self, .component resolved (reaches_of_meet met reaches)⟩
    · exact .inr ⟨first, List.mem_cons_of_mem _ met, reaches⟩

variable (document propsOptional) in
theorem named_registrations (references : List String) :
    Registry.Named (references.map (document.registration propsOptional)) := by
  intro entry member
  obtain ⟨reference, _, rfl⟩ := List.mem_map.mp member
  simp only [registration]

theorem declarations_registrations {references : List String}
    (resolves : ∀ reference ∈ references,
      ∃ declaration, document.declarationOf propsOptional reference = some declaration) :
    (Registry.declarations (references.map (document.registration propsOptional))).map some =
      references.map (document.declarationOf propsOptional) := by
  unfold Registry.declarations
  induction references with
  | nil => rfl
  | cons reference rest ih =>
    obtain ⟨declaration, declared⟩ := resolves reference List.mem_cons_self
    have tail := ih fun other member => resolves other (List.mem_cons_of_mem reference member)
    have first : (document.registration propsOptional reference).declaration = some declaration :=
      declared
    rw [List.map_cons, List.filterMap_cons_some first, List.map_cons, tail, List.map_cons, declared]

/-- Every entry has its declaration, none is there twice, and nothing they refer to is missing. -/
structure Complete (document : Document) (propsOptional : Bool) (registry : Registry) : Prop where
  registrations : registry = registry.references.map (document.registration propsOptional)
  distinct : registry.references.Nodup
  settled : document.Settled registry.references

namespace Complete

variable {registry final : Registry}

theorem empty : document.Complete propsOptional [] :=
  ⟨rfl, List.nodup_nil, fun _ member => absurd member List.not_mem_nil⟩

theorem named (complete : document.Complete propsOptional registry) : registry.Named := by
  rw [complete.registrations]
  exact document.named_registrations propsOptional _

/-- A walk that succeeds leaves a complete registry complete. -/
theorem walk (complete : document.Complete propsOptional registry) {steps : List Step}
    (walk : document.Walk propsOptional steps registry (.ok ()) final) :
    document.Complete propsOptional final := by
  have grown := walk.references_subset
  have settles := walk.settles.2
  obtain ⟨added, equal, nodup, fresh⟩ := walk.extends
  have references : final.references = registry.references ++ added := by
    rw [equal, Registry.references, List.map_append]
    exact congrArg _ (references_registrations added)
  refine ⟨?_, ?_, ?_⟩
  · conv => lhs; rw [equal, complete.registrations]
    rw [references, List.map_append]
  · rw [references]
    refine List.nodup_append.mpr ⟨complete.distinct, nodup, ?_⟩
    intro old inside new member same
    subst same
    exact fresh old member inside
  · intro reference member
    by_cases old : reference ∈ registry.references
    · obtain ⟨target, resolved, within⟩ := complete.settled reference old
      exact ⟨target, resolved, fun step met => (within step met).mono grown⟩
    · exact settles reference member old

theorem declarations_eq (complete : document.Complete propsOptional registry) :
    registry.declarations.map some =
      registry.references.map (document.declarationOf propsOptional) := by
  conv => lhs; rw [complete.registrations]
  apply declarations_registrations
  intro reference member
  obtain ⟨target, resolved, _⟩ := complete.settled reference member
  exact ⟨_, by rw [declarationOf, resolved, Option.map_some]⟩

theorem mem_declarations_iff (complete : document.Complete propsOptional registry)
    {declaration : Declaration} :
    declaration ∈ registry.declarations ↔ ∃ reference ∈ registry.references,
      document.declarationOf propsOptional reference = some declaration := by
  rw [← List.mem_map, ← complete.declarations_eq]
  simp

end Complete

end Document

def treeDocument : Document where
  paths := [("/nodes", ⟨[], [
    ⟨.get, some "root", [], none, [("200", .item ⟨none,
      [("application/json", some (.reference "#/components/schemas/Node"))], none⟩)]⟩,
    ⟨.post, some "plant", [], some (.item ⟨true, [("multipart/form-data", none)]⟩), []⟩]⟩)]
  components := { Components.empty with schemas := [
    ("Node", .keywords { Keywords.bare with
      types := some (.one "object")
      properties := some [("tag", .reference "#/components/schemas/Tag"),
        ("children", .keywords { Keywords.bare with
          types := some (.one "array")
          items := some (.reference "#/components/schemas/Node") })]
      required := ["tag"] }),
    ("Tag", .keywords { Keywords.bare with types := some (.one "string"), nullable := true })] }
  definitions := []

end TypedClient.OpenApi
