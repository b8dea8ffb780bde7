import TypedClient.Proofs.Lists
import TypedClient.Proofs.OpenApi.MappingSteps
import TypedClient.Proofs.TypeScript.TypeTree

/-! Mapping as a walk through the components of a document, without limits.

`Document.Walk` says what performing steps does to a registry; each component is
entered when its reference is first met. `Document.typeOf_walk` says that mapping
takes such a walk, so the limit on nested first visits is never reached.
-/

set_option autoImplicit false

namespace TypedClient.OpenApi

open TypeScript (Declaration TypeExpr)

namespace Registry

def references (registry : Registry) : List String := registry.map (·.reference)

theorem find?_eq_none_iff {registry : Registry} {reference : String} :
    registry.find? reference = none ↔ reference ∉ registry.references := by
  simp [find?, references]

@[simp] theorem references_register (registry : Registry) (reference name : String) :
    (registry.register reference name).references = registry.references ++ [reference] := by
  simp [register, references]

@[simp] theorem references_declare (registry : Registry) (reference : String)
    (declaration : Declaration) :
    (registry.declare reference declaration).references = registry.references := by
  unfold references declare
  rw [List.map_map]
  apply List.map_congr_left
  intro entry _
  simp only [Function.comp_apply]
  split <;> rfl

theorem Named.register {registry : Registry} (named : registry.Named) (reference : String) :
    (registry.register reference (referenceTypeName reference)).Named := by
  intro entry member
  rcases List.mem_append.mp member with old | new
  · exact named entry old
  · rw [List.mem_singleton.mp new]

theorem Named.declare {registry : Registry} (named : registry.Named) (reference : String)
    (declaration : Declaration) : (registry.declare reference declaration).Named := by
  intro entry member
  obtain ⟨old, inside, rfl⟩ := List.mem_map.mp member
  have same := named old inside
  split <;> exact same

theorem Named.name_of_find? {registry : Registry} (named : registry.Named) {reference : String}
    {entry : Registration} (found : registry.find? reference = some entry) :
    entry.name = referenceTypeName reference := by
  have same := List.find?_some found
  rw [named entry (List.mem_of_find?_eq_some found), beq_iff_eq.mp same]

end Registry

theorem componentDeclaration_name (name : String) (type : TypeExpr) :
    (componentDeclaration name type).name = name := by
  unfold componentDeclaration
  split <;> rfl

theorem componentDeclaration_type (name : String) (type : TypeExpr) :
    (componentDeclaration name type).body.type = type := by
  unfold componentDeclaration
  split <;> rfl

namespace Document

variable (document : Document) (propsOptional : Bool)

def declarationOf (reference : String) : Option Declaration :=
  (document.schemaAt? reference).map fun target =>
    componentDeclaration (referenceTypeName reference) (target.shape propsOptional)

theorem name_of_declarationOf {reference : String} {declaration : Declaration}
    (declared : document.declarationOf propsOptional reference = some declaration) :
    declaration.name = referenceTypeName reference := by
  obtain ⟨target, _, rfl⟩ := Option.map_eq_some_iff.mp declared
  exact componentDeclaration_name _ _

theorem declarationOf_of_schemaAt {reference : String} {target : Schema}
    (resolved : document.schemaAt? reference = some target) :
    document.declarationOf propsOptional reference =
      some (componentDeclaration (referenceTypeName reference) (target.shape propsOptional)) := by
  rw [declarationOf, resolved, Option.map_some]

inductive Walk : List Step → Registry → Except Fault Unit → Registry → Prop where
  | done {registry : Registry} : Walk [] registry (.ok ()) registry
  | refused {name : String} {rest : List Step} {registry : Registry} :
      Walk (.refuse name :: rest) registry (.error (.unknownNode .openApiType name)) registry
  | known {reference : String} {rest : List Step} {registry final : Registry}
      {outcome : Except Fault Unit} :
      reference ∈ registry.references → Walk rest registry outcome final →
      Walk (.meet reference :: rest) registry outcome final
  | missing {reference : String} {rest : List Step} {registry : Registry} :
      reference ∉ registry.references → document.schemaAt? reference = none →
      Walk (.meet reference :: rest) registry (.error (.unresolvedReference reference)) registry
  | broken {reference : String} {rest : List Step} {registry inner : Registry} {target : Schema}
      {fault : Fault} :
      reference ∉ registry.references → document.schemaAt? reference = some target →
      Walk target.steps (registry.register reference (referenceTypeName reference))
        (.error fault) inner →
      Walk (.meet reference :: rest) registry (.error fault) inner
  | entered {reference : String} {rest : List Step} {registry inner final : Registry}
      {target : Schema} {outcome : Except Fault Unit} :
      reference ∉ registry.references → document.schemaAt? reference = some target →
      Walk target.steps (registry.register reference (referenceTypeName reference)) (.ok ()) inner →
      Walk rest
        (inner.declare reference
          (componentDeclaration (referenceTypeName reference) (target.shape propsOptional)))
        outcome final →
      Walk (.meet reference :: rest) registry outcome final

variable {document propsOptional}

theorem Walk.references_subset {steps : List Step} {registry final : Registry}
    {outcome : Except Fault Unit} (walk : document.Walk propsOptional steps registry outcome final) :
    registry.references ⊆ final.references := by
  induction walk with
  | done => exact List.Subset.refl _
  | refused => exact List.Subset.refl _
  | known _ _ ih => exact ih
  | missing => exact List.Subset.refl _
  | broken _ _ _ ih =>
    rw [Registry.references_register] at ih
    exact (List.append_subset.mp ih).1
  | entered _ _ _ _ ihTarget ihRest =>
    rw [Registry.references_register] at ihTarget
    rw [Registry.references_declare] at ihRest
    exact List.Subset.trans (List.append_subset.mp ihTarget).1 ihRest

theorem Walk.named {steps : List Step} {registry final : Registry} {outcome : Except Fault Unit}
    (walk : document.Walk propsOptional steps registry outcome final) (named : registry.Named) :
    final.Named := by
  induction walk with
  | done => exact named
  | refused => exact named
  | known _ _ ih => exact ih named
  | missing => exact named
  | broken _ _ _ ih => exact ih (named.register _)
  | entered _ _ _ _ ihTarget ihRest => exact ihRest ((ihTarget (named.register _)).declare _ _)

section Inversion
variable {reference : String} {rest : List Step} {registry final : Registry} {target : Schema}
  {outcome : Except Fault Unit}
  (walk : document.Walk propsOptional (.meet reference :: rest) registry outcome final)
include walk

theorem Walk.of_known (old : reference ∈ registry.references) :
    document.Walk propsOptional rest registry outcome final := by
  cases walk with
  | known _ walk => exact walk
  | missing fresh => exact absurd old fresh
  | broken fresh => exact absurd old fresh
  | entered fresh => exact absurd old fresh

theorem Walk.of_missing (fresh : reference ∉ registry.references)
    (unresolved : document.schemaAt? reference = none) :
    outcome = .error (.unresolvedReference reference) ∧ final = registry := by
  cases walk with
  | known old => exact absurd old fresh
  | missing => exact ⟨rfl, rfl⟩
  | broken _ resolved => cases unresolved.symm.trans resolved
  | entered _ resolved => cases unresolved.symm.trans resolved

/-- A new component breaks the walk or is walked through. -/
theorem Walk.of_entering (fresh : reference ∉ registry.references)
    (resolved : document.schemaAt? reference = some target) :
    (∃ fault, outcome = .error fault ∧
      document.Walk propsOptional target.steps
        (registry.register reference (referenceTypeName reference)) (.error fault) final) ∨
    ∃ inner, document.Walk propsOptional target.steps
        (registry.register reference (referenceTypeName reference)) (.ok ()) inner ∧
      document.Walk propsOptional rest
        (inner.declare reference
          (componentDeclaration (referenceTypeName reference) (target.shape propsOptional)))
        outcome final := by
  cases walk with
  | known old => exact absurd old fresh
  | missing _ unresolved => cases unresolved.symm.trans resolved
  | broken _ found below =>
    cases resolved.symm.trans found
    exact .inl ⟨_, rfl, below⟩
  | entered _ found below others =>
    cases resolved.symm.trans found
    exact .inr ⟨_, below, others⟩

end Inversion

variable (document propsOptional) in
/-- One turn of the recursion: how a reference is met, given how those in its component are. -/
def meetWith (inside : String → Mapping String) (reference : String) : Mapping String := do
  match (← get).find? reference with
  | some entry => return entry.name
  | none =>
    let target ← document.schemaAt reference
    let name := referenceTypeName reference
    modify (·.register reference name)
    let type ← target.typeWith propsOptional inside
    modify (·.declare reference (componentDeclaration name type))
    return name

variable (document propsOptional) in
theorem enter_succ (limit : Nat) : document.enter propsOptional (limit + 1) =
    document.meetWith propsOptional (document.enter propsOptional limit) := rfl

variable (document propsOptional) in
theorem meetWith_outcome (inside : String → Mapping String) (reference : String) (registry : Registry) :
    (document.meetWith propsOptional inside reference).outcome registry =
      match registry.find? reference with
      | some entry => (.ok entry.name, registry)
      | none =>
        match document.schemaAt? reference with
        | none => (.error (.unresolvedReference reference), registry)
        | some target =>
          match (target.typeWith propsOptional inside).outcome
              (registry.register reference (referenceTypeName reference)) with
          | (.ok type, after) =>
            (.ok (referenceTypeName reference), after.declare reference
              (componentDeclaration (referenceTypeName reference) type))
          | (.error fault, after) => (.error fault, after) := by
  rw [meetWith, MappingOn.outcome_bind, MappingOn.outcome_get]
  cases found : registry.find? reference with
  | some entry => simp only [found, MappingOn.outcome_pure]
  | none =>
    simp only [found]
    rw [MappingOn.outcome_bind, MappingOn.outcome_lift, schemaAt]
    cases resolved : document.schemaAt? reference with
    | none => rfl
    | some target =>
      simp only
      rw [MappingOn.outcome_bind, MappingOn.outcome_modify]
      simp only
      rw [MappingOn.outcome_bind]
      rcases mapped : (target.typeWith propsOptional inside).outcome
          (registry.register reference (referenceTypeName reference)) with ⟨result | result, after⟩
      · rfl
      · rfl

theorem names_meetWith {inside : String → Mapping String} (names : Names inside) :
    Names (document.meetWith propsOptional inside) := by
  intro reference registry named
  rw [meetWith_outcome]
  cases found : registry.find? reference with
  | some entry =>
    refine ⟨named, ?_⟩
    intro name given
    cases given
    exact named.name_of_find? found
  | none =>
    cases resolved : document.schemaAt? reference with
    | none => exact ⟨named, fun name given => by cases given⟩
    | some target =>
      have registered := named.register reference
      have performed := target.performs propsOptional names _ registered
      have kept := names.performAll target.steps _ registered
      simp only [performed, MappingOn.outcome_bind]
      rcases within : (performAll inside target.steps).outcome
        (registry.register reference (referenceTypeName reference)) with ⟨result | result, after⟩
      · rw [within] at kept
        exact ⟨kept, fun name given => by cases given⟩
      · rw [within] at kept
        exact ⟨kept.declare _ _, fun name given => (Except.ok.inj given).symm⟩

section Meeting
variable {inside : String → Mapping String} {reference : String} {rest : List Step} {registry after : Registry}
  {target : Schema}

theorem outcome_known (old : reference ∈ registry.references) :
    (performAll (document.meetWith propsOptional inside) (.meet reference :: rest)).outcome registry =
      (performAll (document.meetWith propsOptional inside) rest).outcome registry := by
  cases found : registry.find? reference with
  | none => exact absurd old (Registry.find?_eq_none_iff.mp found)
  | some entry => rw [outcome_meet, meetWith_outcome, found]

theorem outcome_missing (fresh : reference ∉ registry.references)
    (unresolved : document.schemaAt? reference = none) :
    (performAll (document.meetWith propsOptional inside) (.meet reference :: rest)).outcome registry =
      (.error (.unresolvedReference reference), registry) := by
  rw [outcome_meet, meetWith_outcome, Registry.find?_eq_none_iff.mpr fresh, unresolved]

theorem outcome_broken {fault : Fault} (fresh : reference ∉ registry.references)
    (resolved : document.schemaAt? reference = some target)
    (mapped : (target.typeWith propsOptional inside).outcome
      (registry.register reference (referenceTypeName reference)) = (.error fault, after)) :
    (performAll (document.meetWith propsOptional inside) (.meet reference :: rest)).outcome registry =
      (.error fault, after) := by
  rw [outcome_meet, meetWith_outcome, Registry.find?_eq_none_iff.mpr fresh, resolved]
  simp only [mapped]

theorem outcome_entered {type : TypeExpr} (fresh : reference ∉ registry.references)
    (resolved : document.schemaAt? reference = some target)
    (mapped : (target.typeWith propsOptional inside).outcome
      (registry.register reference (referenceTypeName reference)) = (.ok type, after)) :
    (performAll (document.meetWith propsOptional inside) (.meet reference :: rest)).outcome registry =
      (performAll (document.meetWith propsOptional inside) rest).outcome
        (after.declare reference (componentDeclaration (referenceTypeName reference) type)) := by
  rw [outcome_meet, meetWith_outcome, Registry.find?_eq_none_iff.mpr fresh, resolved]
  simp only [mapped]

end Meeting

theorem names_throw (fault : String → Fault) : Names fun reference => throw (fault reference) := by
  intro reference registry named
  exact ⟨named, fun name given => by cases given⟩

variable (document propsOptional) in
theorem enter_names (limit : Nat) : Names (document.enter propsOptional limit) := by
  induction limit with
  | zero => exact names_throw .unresolvedReference
  | succ limit ih => exact names_meetWith ih

end Document

section References

theorem Schema.references_subset_of_mem {schemas : List Schema} {schema : Schema}
    (member : schema ∈ schemas) : schema.references ⊆ Schema.listReferences schemas := by
  induction schemas with
  | nil => cases member
  | cons first rest ih =>
    rw [Schema.listReferences]
    rcases List.mem_cons.mp member with rfl | inside
    · exact List.subset_append_left _ _
    · exact List.Subset.trans (ih inside) (List.subset_append_right _ _)

theorem Schema.references_subset_of_property {properties : List (String × Schema)}
    {property : String × Schema} (member : property ∈ properties) :
    property.2.references ⊆ Schema.propertyReferences properties := by
  induction properties with
  | nil => cases member
  | cons first rest ih =>
    rw [Schema.propertyReferences]
    rcases List.mem_cons.mp member with rfl | inside
    · exact List.subset_append_left _ _
    · exact List.Subset.trans (ih inside) (List.subset_append_right _ _)

theorem Schema.references_subset_of_part {content : Keywords Schema} {part : Schema}
    (member : part ∈ content.parts) : part.references ⊆ (Schema.keywords content).references := by
  rcases content with
    ⟨types, properties, required, items, enumeration, anyOf, oneOf, allOf, extra, constant, nullable⟩
  intro reference met
  simp only [Keywords.parts, Keywords.objectParts, List.mem_append, List.mem_map] at member
  simp only [Schema.references, List.mem_append]
  rcases member with ((((⟨property, inside, rfl⟩ | inside) | inside) | inside) | inside) | inside
  · cases properties with
    | none => cases inside
    | some properties =>
      exact .inl (.inl (.inl (.inl (.inl (Schema.references_subset_of_property inside met)))))
  · rcases extra with _ | (allowed | values)
    · cases inside
    · cases inside
    · rw [List.mem_singleton.mp inside] at met
      exact .inr met
  · rw [Option.mem_toList] at inside
    subst inside
    exact .inl (.inl (.inl (.inl (.inr met))))
  · cases anyOf with
    | none => cases inside
    | some members => exact .inl (.inl (.inl (.inr (Schema.references_subset_of_mem inside met))))
  · cases oneOf with
    | none => cases inside
    | some members => exact .inl (.inl (.inr (Schema.references_subset_of_mem inside met)))
  · cases allOf with
    | none => cases inside
    | some members => exact .inl (.inr (Schema.references_subset_of_mem inside met))

theorem Schema.mem_references_of_met {schema : Schema} {reference : String}
    (met : .meet reference ∈ schema.steps) : reference ∈ schema.references := by
  induction schema using Schema.induction with
  | reference target =>
    rw [Schema.meet_mem_steps_reference] at met
    rw [met, Schema.references]
    exact List.mem_singleton.mpr rfl
  | keywords content ih =>
    obtain ⟨part, visited, inside⟩ := Schema.meet_mem_steps_keywords.mp met
    have member := content.visited_subset visited
    exact Schema.references_subset_of_part member (ih part member inside)

theorem Schema.references_subset_of_lookup {table : List (String × Schema)} {name : String}
    {schema : Schema} (found : table.lookup name = some schema) :
    schema.references ⊆ Schema.propertyReferences table := by
  have member : (name, schema) ∈ table := by
    obtain ⟨first, rest, split, _⟩ := List.lookup_eq_some_iff.mp found
    simp [split]
  exact Schema.references_subset_of_property member

/-- What a component meets stands in the tables of its document. -/
theorem Document.mem_references_of_met {document : Document} {reference other : String}
    {target : Schema} (resolved : document.schemaAt? reference = some target)
    (met : .meet other ∈ target.steps) : other ∈ document.references := by
  have inside := Schema.mem_references_of_met met
  unfold Document.schemaAt? at resolved
  unfold Document.references
  split at resolved
  · exact List.mem_append_left _ (Schema.references_subset_of_lookup resolved inside)
  · split at resolved
    · exact List.mem_append_right _ (Schema.references_subset_of_lookup resolved inside)
    · cases resolved

end References

namespace Document

variable {document : Document} {propsOptional : Bool}

def unmet (document : Document) (known : List String) : Nat :=
  document.references.countP fun reference => !known.contains reference

theorem unmet_le_length (document : Document) (known : List String) :
    document.unmet known ≤ document.references.length := List.countP_le_length

theorem unmet_append_lt {known more : List String} {reference : String}
    (inside : reference ∈ document.references) (grown : known ⊆ more) (fresh : reference ∉ more) :
    document.unmet (more ++ [reference]) < document.unmet known := by
  refine countP_lt_countP ?_ inside ?_ ?_
  · intro other _ unknown
    have absent : other ∉ known := by
      intro member
      simp [grown member] at unknown
    simp [absent]
  · simp
  · have absent : reference ∉ known := fun member => fresh (grown member)
    simp [absent]

variable (document propsOptional) in
def WalksWithin (limit : Nat) (steps : List Step) (registry : Registry) : Prop :=
  document.Walk propsOptional steps registry
    ((performAll (document.enter propsOptional limit) steps).outcome registry).1
    ((performAll (document.enter propsOptional limit) steps).outcome registry).2

/-- The limit may fall by one for the components that are entered, if it is enough there. -/
theorem walksWithin_of_room {limit : Nat}
    (deep : ∀ (reference : String) (target : Schema) (registry : Registry),
      document.schemaAt? reference = some target → registry.Named →
      document.unmet registry.references < limit →
      document.WalksWithin propsOptional limit target.steps registry)
    (steps : List Step) (registry : Registry) (named : registry.Named)
    (room : ∀ (reference : String) (known : List String), .meet reference ∈ steps →
      registry.references ⊆ known → reference ∉ known →
      document.unmet (known ++ [reference]) < limit) :
    document.WalksWithin propsOptional (limit + 1) steps registry := by
  -- References only grow, so the room that is left for the first step is left for the rest.
  unfold WalksWithin
  induction steps generalizing registry with
  | nil => exact .done
  | cons step rest ih =>
    have roomRest : ∀ (reference : String) (known : List String), .meet reference ∈ rest →
        registry.references ⊆ known → reference ∉ known →
        document.unmet (known ++ [reference]) < limit :=
      fun reference known met => room reference known (List.mem_cons_of_mem step met)
    cases step with
    | refuse name => exact .refused
    | meet reference =>
      rw [enter_succ]
      rcases Classical.em (reference ∈ registry.references) with old | fresh
      · rw [outcome_known old]
        exact .known old (ih registry named roomRest)
      · cases resolved : document.schemaAt? reference with
        | none =>
          rw [outcome_missing fresh resolved]
          exact .missing fresh resolved
        | some target =>
          -- The component has its own room; what it adds leaves the rest no less.
          have registered := named.register reference
          have enough := room reference _ List.mem_cons_self (List.Subset.refl _) fresh
          rw [← Registry.references_register registry reference (referenceTypeName reference)]
            at enough
          have walk := deep reference target _ resolved registered enough
          have names := document.enter_names propsOptional limit
          have performs := target.performs propsOptional names
          have kept := names.performAll target.steps _ registered
          unfold WalksWithin at walk
          rcases inner : (performAll (document.enter propsOptional limit) target.steps).outcome
            (registry.register reference (referenceTypeName reference)) with ⟨result | result, after⟩
          · rw [inner] at walk
            rw [outcome_broken fresh resolved (performs.outcome_eq registered inner)]
            exact .broken fresh resolved walk
          · rw [inner] at walk kept
            rw [outcome_entered fresh resolved (performs.outcome_eq registered inner)]
            refine .entered fresh resolved walk (ih _ (kept.declare _ _) ?_)
            intro other known met grown
            apply roomRest other known met
            have start := walk.references_subset
            rw [Registry.references_register] at start
            rw [Registry.references_declare] at grown
            exact List.Subset.trans (List.append_subset.mp start).1 grown

/-- For a component the limit need only exceed the number of references that are left to meet. -/
theorem walksWithin_component (limit : Nat) (reference : String) (target : Schema)
    (registry : Registry) (resolved : document.schemaAt? reference = some target)
    (named : registry.Named) (enough : document.unmet registry.references < limit) :
    document.WalksWithin propsOptional limit target.steps registry := by
  induction limit generalizing reference target registry with
  | zero => omega
  | succ limit ih =>
    -- A new reference that the component meets is one fewer to meet inside it.
    refine walksWithin_of_room ih target.steps registry named ?_
    intro other known met grown fresh
    have fewer := unmet_append_lt (document.mem_references_of_met resolved met) grown fresh
    omega

/-- What performs steps walks through them, and gives its value where the walk succeeds. -/
theorem walk_of_performs {α : Type} {mapping : Mapping α} {steps : List Step} {value : α}
    (performs : Performs (document.enter propsOptional document.visitLimit) mapping steps value)
    (registry : Registry) (named : registry.Named) :
    ∃ outcome final, document.Walk propsOptional steps registry outcome final ∧
      mapping.outcome registry = (outcome.map fun _ => value, final) := by
  have walk : document.WalksWithin propsOptional (document.references.length + 1 + 1) steps registry :=
    walksWithin_of_room (walksWithin_component (document.references.length + 1)) steps registry named
      fun _ _ _ _ _ => Nat.lt_succ_of_le (document.unmet_le_length _)
  exact ⟨_, _, walk, performs.outcome_eq named rfl⟩

theorem typeOf_performs (schema : Schema) :
    Performs (document.enter propsOptional document.visitLimit) (document.typeOf propsOptional schema)
      schema.steps (schema.shape propsOptional) :=
  schema.performs propsOptional (document.enter_names propsOptional document.visitLimit)

/-- Mapping a schema walks through its steps, and gives its shape where the walk succeeds. -/
theorem typeOf_walk (schema : Schema) (registry : Registry) (named : registry.Named) :
    ∃ outcome final, document.Walk propsOptional schema.steps registry outcome final ∧
      (document.typeOf propsOptional schema).outcome registry =
        (outcome.map fun _ => schema.shape propsOptional, final) :=
  walk_of_performs (typeOf_performs schema) registry named

end Document

end TypedClient.OpenApi
