import TypedClient.Proofs.OpenApi.Reachability

/-! Mapping one schema after another.

The registry that successful mappings leave is determined by the schemas that were
mapped, up to the order of its entries, and what it holds changes neither the type nor
the failure of the next mapping.
-/

set_option autoImplicit false

namespace TypedClient.OpenApi

open TypeScript (Declaration TypeExpr)

namespace Document

variable {document : Document} {propsOptional : Bool}

/-- References that are there already, or whose components can be mapped without meeting any other. -/
def SettledBeyond (document : Document) (base known : List String) : Prop :=
  ∀ reference ∈ known, reference ∉ base → ∃ target, document.schemaAt? reference = some target ∧
    ∀ step ∈ target.steps, step.Within known

/-- Steps within references that are settled beyond the known ones succeed, and add no others. -/
theorem Walk.succeeds_beyond {base known : List String} (settled : document.SettledBeyond base known)
    {steps : List Step} {registry final : Registry} {outcome : Except Fault Unit}
    (walk : document.Walk propsOptional steps registry outcome final)
    (within : ∀ step ∈ steps, step.Within known) (grown : base ⊆ registry.references) :
    outcome = .ok () ∧ final.references ⊆ registry.references ++ known := by
  have inside {reference : String} {target : Schema} {registry : Registry}
      (fresh : reference ∉ registry.references) (grown : base ⊆ registry.references)
      (member : reference ∈ known) (resolved : document.schemaAt? reference = some target) :
      ∀ step ∈ target.steps, step.Within known := by
    obtain ⟨found, foundAt, inside⟩ := settled reference member fun old => fresh (grown old)
    rw [resolved] at foundAt
    cases foundAt
    exact inside
  induction walk with
  | done => exact ⟨rfl, List.subset_append_left _ _⟩
  | refused => exact (within _ List.mem_cons_self).elim
  | known _ _ ih => exact ih (fun step met => within step (List.mem_cons_of_mem _ met)) grown
  | missing fresh unresolved =>
    -- A settled reference that is new has a component.
    obtain ⟨target, resolved, _⟩ := settled _ (within _ List.mem_cons_self) fun old => fresh (grown old)
    rw [unresolved] at resolved
    cases resolved
  | broken fresh resolved _ ih =>
    rw [Registry.references_register] at ih
    have failed := ih (inside fresh grown (within _ List.mem_cons_self) resolved)
      (List.subset_append_of_subset_left _ grown)
    cases failed.1
  | entered fresh resolved walk _ ihTarget ihRest =>
    have member := within _ List.mem_cons_self
    rw [Registry.references_register] at ihTarget
    rw [Registry.references_declare] at ihRest
    have below := (ihTarget (inside fresh grown member resolved)
      (List.subset_append_of_subset_left _ grown)).2
    have kept := walk.references_subset
    rw [Registry.references_register] at kept
    obtain ⟨success, after⟩ := ihRest (fun step met => within step (List.mem_cons_of_mem _ met))
      (List.Subset.trans (List.subset_append_of_subset_left _ grown) kept)
    refine ⟨success, ?_⟩
    refine List.Subset.trans after (List.append_subset.mpr ⟨?_, List.subset_append_right _ _⟩)
    refine List.Subset.trans below (List.append_subset.mpr ⟨?_, List.subset_append_right _ _⟩)
    apply List.append_subset.mpr ⟨List.subset_append_left _ _, ?_⟩
    intro other same
    rw [List.mem_singleton.mp same]
    exact List.mem_append_right _ member

theorem Walk.succeeds_within {known : List String} (settled : document.Settled known)
    {steps : List Step} {registry final : Registry} {outcome : Except Fault Unit}
    (walk : document.Walk propsOptional steps registry outcome final)
    (within : ∀ step ∈ steps, step.Within known) :
    outcome = .ok () ∧ final.references ⊆ registry.references ++ known :=
  Walk.succeeds_beyond (fun reference member _ => settled reference member) walk within
    (List.nil_subset registry.references)

end Document

/-- Registries with the same references, apart from known ones. -/
def Registry.AgreeOutside (known : List String) (first second : Registry) : Prop :=
  ∀ reference, reference ∉ known →
    (reference ∈ first.references ↔ reference ∈ second.references)

namespace Registry.AgreeOutside

variable {known : List String} {first second third : Registry}

theorem symm (agree : first.AgreeOutside known second) : second.AgreeOutside known first :=
  fun reference unknown => (agree reference unknown).symm

theorem trans (left : first.AgreeOutside known second) (right : second.AgreeOutside known third) :
    first.AgreeOutside known third :=
  fun reference unknown => (left reference unknown).trans (right reference unknown)

theorem register (agree : first.AgreeOutside known second) (reference name : String) :
    (first.register reference name).AgreeOutside known (second.register reference name) := by
  intro other unknown
  simp only [references_register, List.mem_append, agree other unknown]

theorem declare (agree : first.AgreeOutside known second) (reference : String)
    (left right : Declaration) :
    (first.declare reference left).AgreeOutside known (second.declare reference right) := by
  intro other unknown
  rw [references_declare, references_declare]
  exact agree other unknown

end Registry.AgreeOutside

namespace Document

variable {document : Document} {propsOptional : Bool}

theorem Walk.succeeds_of_settled {known : List String} (settled : document.Settled known)
    {reference : String} {target : Schema} {registry final : Registry}
    {outcome : Except Fault Unit} (member : reference ∈ known)
    (resolved : document.schemaAt? reference = some target)
    (walk : document.Walk propsOptional target.steps registry outcome final) :
    outcome = .ok () ∧ final.references ⊆ registry.references ++ known :=
  walk.succeeds_within settled (settled.within member resolved)

/-- Entering a settled reference changes nothing outside the settled ones. -/
theorem Walk.agreeOutside_of_settled {known : List String} (settled : document.Settled known)
    {reference : String} {target : Schema} {registry inner : Registry}
    {outcome : Except Fault Unit} (declaration : Declaration) (member : reference ∈ known)
    (resolved : document.schemaAt? reference = some target)
    (walk : document.Walk propsOptional target.steps
      (registry.register reference (referenceTypeName reference)) outcome inner) :
    registry.AgreeOutside known (inner.declare reference declaration) := by
  obtain ⟨_, below⟩ := walk.succeeds_of_settled settled member resolved
  intro other unknown
  rw [Registry.references_declare]
  have grown := walk.references_subset
  rw [Registry.references_register] at below grown
  constructor
  · exact fun old => grown (List.mem_append_left _ old)
  · intro new
    have different : other ≠ reference := by
      rintro rfl
      exact unknown member
    have kept := below new
    simp only [List.mem_append, List.mem_singleton] at kept
    rcases kept with (old | same) | inside
    · exact old
    · exact absurd same different
    · exact absurd inside unknown

/-- Meeting a settled reference leads on, with nothing changed outside the settled ones. -/
theorem Walk.past_settled {known : List String} (settled : document.Settled known)
    {reference : String} {rest : List Step} {registry final : Registry}
    {outcome : Except Fault Unit} (member : reference ∈ known)
    (walk : document.Walk propsOptional (.meet reference :: rest) registry outcome final) :
    ∃ after, registry.AgreeOutside known after ∧
      document.Walk propsOptional rest after outcome final := by
  cases walk with
  | known _ walk => exact ⟨registry, fun _ _ => Iff.rfl, walk⟩
  | missing _ unresolved =>
    obtain ⟨target, resolved, _⟩ := settled reference member
    rw [unresolved] at resolved
    cases resolved
  | broken _ resolved below =>
    cases (below.succeeds_of_settled settled member resolved).1
  | entered _ resolved below walk =>
    exact ⟨_, below.agreeOutside_of_settled settled _ member resolved, walk⟩

/-- Walks from registries that agree outside settled references end alike. -/
theorem Walk.agree {known : List String} (settled : document.Settled known) {steps : List Step}
    {first firstFinal second secondFinal : Registry} {outcome other : Except Fault Unit}
    (walk : document.Walk propsOptional steps first outcome firstFinal)
    (beside : document.Walk propsOptional steps second other secondFinal)
    (agree : first.AgreeOutside known second) :
    outcome = other ∧ firstFinal.AgreeOutside known secondFinal := by
  -- Outside the settled references both walks take the same step. Inside them one may enter what
  -- the other knows; `past_settled` then brings the second walk level with the first.
  induction walk generalizing second other secondFinal with
  | done =>
    cases beside
    exact ⟨rfl, agree⟩
  | refused =>
    cases beside
    exact ⟨rfl, agree⟩
  | @known reference rest registry final outcome old walk ih =>
    by_cases member : reference ∈ known
    · obtain ⟨after, changed, beside⟩ := beside.past_settled settled member
      exact ih beside (agree.trans changed)
    · exact ih (beside.of_known ((agree reference member).mp old)) agree
  | @missing reference rest registry fresh unresolved =>
    have member : reference ∉ known := by
      intro member
      obtain ⟨target, resolved, _⟩ := settled reference member
      cases unresolved.symm.trans resolved
    obtain ⟨rfl, rfl⟩ := beside.of_missing (mt (agree reference member).mpr fresh) unresolved
    exact ⟨rfl, agree⟩
  | @broken reference rest registry inner target fault fresh resolved below ih =>
    have member : reference ∉ known := by
      intro member
      cases (below.succeeds_of_settled settled member resolved).1
    rcases beside.of_entering (mt (agree reference member).mpr fresh) resolved with
      ⟨_, rfl, belowBeside⟩ | ⟨_, belowBeside, _⟩
    · exact ih belowBeside (agree.register _ _)
    · cases (ih belowBeside (agree.register _ _)).1
  | @entered reference rest registry inner final target outcome fresh resolved below walk ihBelow ih =>
    by_cases member : reference ∈ known
    · obtain ⟨after, changed, beside⟩ := beside.past_settled settled member
      apply ih beside
      have entering := below.agreeOutside_of_settled settled
        (componentDeclaration (referenceTypeName reference) (target.shape propsOptional)) member
        resolved
      exact (entering.symm.trans agree).trans changed
    · rcases beside.of_entering (mt (agree reference member).mpr fresh) resolved with
        ⟨_, rfl, belowBeside⟩ | ⟨_, belowBeside, beside⟩
      · cases (ihBelow belowBeside (agree.register _ _)).1
      · have within := (ihBelow belowBeside (agree.register _ _)).2
        exact ih beside (within.declare _ _ _)

end Document

namespace Document

/-- The registry that mapping some schemas in order leaves, when each of them succeeds. -/
inductive Mapped (document : Document) (propsOptional : Bool) : List Schema → Registry → Prop where
  | start : Mapped document propsOptional [] []
  | next {schemas : List Schema} {schema : Schema} {registry after : Registry} {type : TypeExpr} :
      Mapped document propsOptional schemas registry →
      (document.typeOf propsOptional schema).outcome registry = (.ok type, after) →
      Mapped document propsOptional (schemas ++ [schema]) after

variable {document : Document} {propsOptional : Bool} {schemas : List Schema} {registry : Registry}

theorem Walk.of_typeOf {schema : Schema} {after : Registry} {type : TypeExpr}
    (named : registry.Named)
    (mapped : (document.typeOf propsOptional schema).outcome registry = (.ok type, after)) :
    document.Walk propsOptional schema.steps registry (.ok ()) after ∧
      type = schema.shape propsOptional := by
  obtain ⟨outcome, final, walk, equal⟩ := document.typeOf_walk schema registry named
  rw [equal] at mapped
  cases outcome with
  | error fault => cases mapped
  | ok _ =>
    cases mapped
    exact ⟨walk, rfl⟩

namespace Mapped

theorem complete (mapped : document.Mapped propsOptional schemas registry) :
    document.Complete propsOptional registry := by
  induction mapped with
  | start => exact .empty
  | next _ mapping ih => exact ih.walk (Walk.of_typeOf ih.named mapping).1

theorem walk (mapped : document.Mapped propsOptional schemas registry) :
    document.Walk propsOptional (schemas.flatMap Schema.steps) [] (.ok ()) registry := by
  induction mapped with
  | start => exact .done
  | next before mapping ih =>
    rw [List.flatMap_append, List.flatMap_singleton]
    exact ih.append (Walk.of_typeOf before.complete.named mapping).1

theorem mem_references_iff (mapped : document.Mapped propsOptional schemas registry)
    (reference : String) :
    reference ∈ registry.references ↔ ∃ schema ∈ schemas, document.Reaches schema reference := by
  constructor
  · intro member
    rcases mapped.walk.reached reference member with old | ⟨first, met, reaches⟩
    · cases old
    · obtain ⟨schema, inside, met⟩ := List.mem_flatMap.mp met
      exact ⟨schema, inside, reaches_of_meet met reaches⟩
  · rintro ⟨schema, inside, reaches⟩
    apply reaches.mem_of_settled mapped.complete.settled
    intro other met
    exact mapped.walk.settles.1 _ (List.mem_flatMap.mpr ⟨schema, inside, met⟩)

end Mapped

theorem typeOf_agree {known : List String} (settled : document.Settled known)
    {first second : Registry} (named : first.Named) (namedBeside : second.Named)
    (agree : first.AgreeOutside known second) (schema : Schema) :
    ((document.typeOf propsOptional schema).outcome first).1 =
      ((document.typeOf propsOptional schema).outcome second).1 := by
  obtain ⟨outcome, _, walk, equal⟩ := document.typeOf_walk schema first named
  obtain ⟨other, _, beside, equalBeside⟩ := document.typeOf_walk schema second namedBeside
  rw [equal, equalBeside, (walk.agree settled beside agree).1]

/-- Mapping does not depend on what was mapped before, and leaves one declaration for every
reference that the mapped schemas reach, the same in any order. -/
theorem mapping_independent_of_history {others : List Schema} {beside : Registry}
    (mapped : document.Mapped propsOptional schemas registry)
    (mappedBeside : document.Mapped propsOptional others beside) :
    (∀ schema, ((document.typeOf propsOptional schema).outcome registry).1 =
      ((document.typeOf propsOptional schema).outcome beside).1) ∧
    ∃ references : List String, references.Nodup ∧
      (∀ reference, reference ∈ references ↔
        ∃ schema ∈ schemas, document.Reaches schema reference) ∧
      registry = references.map (document.registration propsOptional) ∧
      registry.declarations.map some = references.map (document.declarationOf propsOptional) := by
  constructor
  · intro schema
    -- All references of both histories are settled, and there are none outside them.
    apply typeOf_agree (mapped.complete.settled.append mappedBeside.complete.settled)
      mapped.complete.named mappedBeside.complete.named
    intro reference unknown
    rw [List.mem_append, not_or] at unknown
    exact iff_of_false unknown.1 unknown.2
  · exact ⟨registry.references, mapped.complete.distinct, mapped.mem_references_iff,
      mapped.complete.registrations, mapped.complete.declarations_eq⟩

theorem tree_mapping_independent_of_history :
    ∃ registry beside,
      treeDocument.Mapped false [.reference "#/components/schemas/Node"] registry ∧
      treeDocument.Mapped false [.reference "#/components/schemas/Tag",
        .reference "#/components/schemas/Node"] beside ∧
      registry.references ≠ beside.references ∧
      (∀ schema, ((treeDocument.typeOf false schema).outcome registry).1 =
        ((treeDocument.typeOf false schema).outcome beside).1) := by
  have mapped : treeDocument.Mapped false [.reference "#/components/schemas/Node"] _ :=
    .next .start rfl
  have mappedBeside : treeDocument.Mapped false [.reference "#/components/schemas/Tag",
      .reference "#/components/schemas/Node"] _ := .next (.next .start rfl) rfl
  exact ⟨_, _, mapped, mappedBeside, by decide,
    (mapping_independent_of_history mapped mappedBeside).1⟩

end Document

end TypedClient.OpenApi
