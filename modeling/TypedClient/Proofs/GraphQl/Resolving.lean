import Mathlib.Data.List.Nodup
import TypedClient.GraphQl.Definitions.Resolution
import TypedClient.Proofs.Lists

/-! The schema of definitions of types, perhaps with a schema block in front. -/

set_option autoImplicit false

namespace TypedClient.GraphQl.Definitions

section Folding
variable {kinds : Kinds} {definitions : List TypeDefinition}

theorem foldlM_types {progress result : Progress} :
    (definitions.map Definition.type).foldlM (Progress.add kinds) progress = .ok result ↔
      ∃ types, definitions.mapM kinds.namedType = .ok types ∧
        result = { progress with types := progress.types ++ types } := by
  induction definitions generalizing progress with
  | nil =>
    simp only [List.map_nil, List.foldlM_nil, List.mapM_nil]
    constructor
    · rintro ⟨⟩
      exact ⟨[], rfl, by simp⟩
    · rintro ⟨types, ⟨⟩, rfl⟩
      simp [pure, Except.pure]
  | cons definition definitions ih =>
    rw [List.map_cons, List.foldlM_cons, List.mapM_cons, Progress.add]
    simp only [bind_eq_ok_iff, ih]
    constructor
    · rintro ⟨_, ⟨type, first, ⟨⟩⟩, types, others, rfl⟩
      exact ⟨type :: types, ⟨type, first, types, others, rfl⟩, by simp⟩
    · rintro ⟨_, ⟨type, first, types, others, ⟨⟩⟩, rfl⟩
      exact ⟨_, ⟨type, first, rfl⟩, types, others, by simp⟩

def resolved (roots : RootNames) (types : List NamedType) : Schema :=
  let all := types ++ impliedScalars types
  ⟨rootName? all roots.query "Query", rootName? all roots.mutation "Mutation",
    rootName? all roots.subscription "Subscription", all⟩

theorem schemaOf_types {block : List Definition} {roots : RootNames}
    (noTypes : block.filterMap Definition.kindEntry? = [])
    (start : ∀ kinds, block.foldlM (Progress.add kinds) Progress.start = .ok ⟨roots, []⟩)
    {schema : Schema} :
    schemaOf (block ++ definitions.map .type) = .ok schema ↔
      ∃ types, definitions.mapM (kindsOf (definitions.map .type)).namedType = .ok types ∧
        schema = resolved roots types := by
  have kinds : kindsOf (block ++ definitions.map .type) = kindsOf (definitions.map .type) := by
    rw [kindsOf, kindsOf, List.filterMap_append, noTypes, List.nil_append]
  unfold schemaOf
  rw [kinds]
  simp only [List.foldlM_append, start, bind_eq_ok_iff, foldlM_types]
  constructor
  · rintro ⟨_, ⟨_, ⟨⟩, types, mapped, rfl⟩, ⟨⟩⟩
    exact ⟨types, mapped, rfl⟩
  · rintro ⟨types, mapped, rfl⟩
    exact ⟨_, ⟨_, rfl, types, mapped, rfl⟩, rfl⟩

end Folding

section Kinds
variable {definitions : List TypeDefinition}

theorem kindsOf_types : kindsOf (definitions.map .type) =
    (definitions.map fun definition => (definition.name, definition.content.kind)).reverse ++
      builtinScalars.map fun name => (name, .scalar) := by
  rw [kindsOf, List.filterMap_map]
  congr 2
  exact congrFun List.filterMap_eq_map definitions

/-- Types with distinct names that are not built in have the kinds they are defined with. -/
theorem lookup_kindsOf (distinct : (definitions.map TypeDefinition.name).Nodup)
    (foreign : ∀ definition ∈ definitions, definition.name ∉ builtinScalars) :
    (∀ definition ∈ definitions, (kindsOf (definitions.map .type)).lookup definition.name =
        some definition.content.kind) ∧
      ∀ name ∈ builtinScalars, (kindsOf (definitions.map .type)).lookup name = some .scalar := by
  have keys : ((kindsOf (definitions.map .type)).map Prod.fst).Nodup := by
    rw [kindsOf_types, List.map_append, List.map_reverse, List.map_map, List.map_map]
    refine List.nodup_append.mpr ⟨List.nodup_reverse.mpr distinct, by decide, ?_⟩
    rintro name defined _ builtin rfl
    obtain ⟨definition, member, rfl⟩ := List.mem_map.mp (List.mem_reverse.mp defined)
    exact foreign definition member (by simpa using builtin)
  constructor
  · intro definition member
    refine lookup_of_mem keys ?_
    rw [kindsOf_types]
    exact List.mem_append_left _ (List.mem_reverse.mpr (List.mem_map_of_mem member))
  · intro name member
    refine lookup_of_mem keys ?_
    rw [kindsOf_types]
    exact List.mem_append_right _ (List.mem_map_of_mem member)

end Kinds

section Names

theorem name_of_namedType {kinds : Kinds} {definition : TypeDefinition} {type : NamedType}
    (found : kinds.namedType definition = .ok type) : type.name = definition.name := by
  obtain ⟨name, description, content⟩ := definition
  unfold Kinds.namedType at found
  cases content with
  | scalar =>
    cases found
    rfl
  | object interfaces fields =>
    simp only [bind_eq_ok_iff] at found
    obtain ⟨_, _, _, _, ⟨⟩⟩ := found
    rfl
  | interface interfaces fields =>
    simp only [bind_eq_ok_iff] at found
    obtain ⟨_, _, _, _, ⟨⟩⟩ := found
    rfl
  | union members =>
    simp only [bind_eq_ok_iff] at found
    obtain ⟨_, _, ⟨⟩⟩ := found
    rfl
  | enumeration values =>
    cases found
    rfl
  | inputObject fields =>
    simp only [bind_eq_ok_iff] at found
    obtain ⟨_, _, ⟨⟩⟩ := found
    rfl

theorem names_of_namedTypes {kinds : Kinds} {definitions : List TypeDefinition}
    {types : List NamedType} (found : definitions.mapM kinds.namedType = .ok types) :
    types.map NamedType.name = definitions.map TypeDefinition.name := by
  induction mapM_eq_ok_iff.mp found with
  | nil => rfl
  | cons first _ ih => rw [List.map_cons, List.map_cons, name_of_namedType first, ih (mapM_eq_ok_iff.mpr ‹_›)]

variable {types others : List NamedType} {explicit : Option String} {usual : String}

/-- No root has the name of a scalar that was added. -/
theorem rootName?_append (ordinary : usual ∉ builtinScalars) :
    rootName? (types ++ impliedScalars types) explicit usual = rootName? types explicit usual := by
  have other : (impliedScalars types).any (·.name == usual) = false := by
    unfold impliedScalars
    simp only [List.any_map, Function.comp_def, NamedType.bare]
    rw [List.any_eq_false]
    intro name member
    have listed := (List.mem_filter.mp member).1
    simp only [beq_iff_eq]
    rintro rfl
    exact ordinary listed
  unfold rootName?
  rw [List.any_append, other, Bool.or_false]

theorem any_name (types : List NamedType) (name : String) :
    types.any (·.name == name) = (types.map NamedType.name).any (· == name) := by
  rw [List.any_map]
  rfl

theorem rootName?_congr (same : (types.map NamedType.name).Perm (others.map NamedType.name)) :
    rootName? types explicit usual = rootName? others explicit usual := by
  unfold rootName?
  rw [any_name, any_name, same.any_eq]

/-- Which built-in scalars there are besides some types depends on the names that these have and use. -/
theorem impliedScalars_congr (same : (types.map NamedType.name).Perm (others.map NamedType.name))
    (used : (types.flatMap NamedType.leafNames).Perm (others.flatMap NamedType.leafNames)) :
    impliedScalars types = impliedScalars others := by
  unfold impliedScalars
  simp only [any_name, same.any_eq, used.contains_eq]

end Names

end TypedClient.GraphQl.Definitions
