import TypedClient.Proofs.GraphQl.Steps

/-! What the types of a schema refer to.

The kinds of names come from a table that is filled before any type is built, and the scalars that
nothing defines come from a scan of the finished types. That both agree with the types is shown by
what the leaves of a run are: those that the names in its definitions stand for.
-/

set_option autoImplicit false

namespace TypedClient.GraphQl

open Definitions

section Leaves

def TypeRef.innermost : TypeRef → TypeRef
  | leaf kind name => leaf kind name
  | wrapper _ _ inner => inner.innermost

def Field.leaves (field : Field) : List TypeRef :=
  field.type.innermost :: field.arguments.map (·.type.innermost)

def NamedType.leaves (type : NamedType) : List TypeRef :=
  (type.fields.getD []).flatMap Field.leaves ++ (type.inputFields.getD []).map (·.type.innermost)

theorem TypeRef.name_innermost (type : TypeRef) : type.innermost.name = type.leafName := by
  induction type with
  | leaf kind name => rfl
  | wrapper kind name inner ih => exact ih

theorem names_leaves (type : NamedType) : type.leaves.map TypeRef.name = NamedType.leafNames type := by
  simp only [NamedType.leaves, NamedType.leafNames, Field.leaves, List.map_append, List.map_flatMap,
    List.map_cons, List.map_map, Function.comp_def, TypeRef.name_innermost]

end Leaves

namespace Definitions

section Standing
variable {kinds : Kinds}

/-- The leaves are those that the names stand for. -/
def Kinds.Stands (kinds : Kinds) (names : List String) (leaves : List TypeRef) : Prop :=
  ∀ leaf, leaf ∈ leaves ↔ ∃ name ∈ names, kinds.leaf name = .ok leaf

theorem stands_nil : kinds.Stands [] [] := by
  intro leaf
  simp

theorem stands_singleton {name : String} {leaf : TypeRef} (found : kinds.leaf name = .ok leaf) :
    kinds.Stands [name] [leaf] := by
  intro other
  simp [found, eq_comm]

theorem Kinds.Stands.append {names others : List String} {leaves more : List TypeRef}
    (first : kinds.Stands names leaves) (rest : kinds.Stands others more) :
    kinds.Stands (names ++ others) (leaves ++ more) := by
  intro leaf
  simp only [List.mem_append, first leaf, rest leaf, or_and_right, exists_or]

theorem stands_of_mapM {α β : Type} {f : α → Except Fault β} {names : α → List String}
    {leaves : β → List TypeRef} (each : ∀ item result, f item = .ok result →
      kinds.Stands (names item) (leaves result))
    {items : List α} {results : List β} (mapped : items.mapM f = .ok results) :
    kinds.Stands (items.flatMap names) (results.flatMap leaves) := by
  induction mapM_eq_ok_iff.mp mapped with
  | nil => exact stands_nil
  | cons found _ ih => exact (each _ _ found).append (ih (mapM_eq_ok_iff.mpr ‹_›))

theorem leaf_of_typeRef {use : TypeUse} {type : TypeRef} (found : kinds.typeRef use = .ok type) :
    kinds.leaf use.leafName = .ok type.innermost := by
  induction use generalizing type with
  | named name =>
    obtain ⟨kind, -, rfl⟩ := leaf_eq_ok_iff.mp found
    exact found
  | list item ih | nonNull item ih =>
    obtain ⟨inner, resolved, rfl⟩ := map_eq_ok_iff.mp found
    exact (ih resolved :)

theorem stands_of_inputs {inputs : List InputDefinition} {values : List InputValue}
    (mapped : inputs.mapM kinds.inputValue = .ok values) :
    kinds.Stands (inputs.map (·.type.leafName)) (values.map (·.type.innermost)) := by
  rw [List.map_eq_flatMap, List.map_eq_flatMap]
  refine stands_of_mapM ?_ mapped
  intro input value found
  obtain ⟨type, resolved, ⟨⟩⟩ := bind_eq_ok_iff.mp found
  exact stands_singleton (leaf_of_typeRef resolved)

theorem stands_of_fields {definitions : List FieldDefinition} {fields : List Field}
    (mapped : definitions.mapM kinds.field = .ok fields) :
    kinds.Stands (definitions.flatMap FieldDefinition.leafNames) (fields.flatMap Field.leaves) := by
  refine stands_of_mapM ?_ mapped
  intro definition field found
  obtain ⟨arguments, mapped, found⟩ := bind_eq_ok_iff.mp found
  obtain ⟨type, resolved, ⟨⟩⟩ := bind_eq_ok_iff.mp found
  exact (stands_singleton (leaf_of_typeRef resolved)).append (stands_of_inputs mapped)

theorem stands_of_namedType {definition : TypeDefinition} {type : NamedType}
    (found : kinds.namedType definition = .ok type) :
    kinds.Stands definition.content.leafNames type.leaves := by
  obtain ⟨name, description, content⟩ := definition
  unfold Kinds.namedType at found
  cases content with
  | scalar | enumeration _ =>
    cases found
    exact stands_nil
  | object interfaces fields | interface interfaces fields =>
    simp only [bind_eq_ok_iff] at found
    obtain ⟨fields, mapped, _, _, ⟨⟩⟩ := found
    simpa [NamedType.leaves, NamedType.bare, TypeContent.leafNames] using stands_of_fields mapped
  | union members =>
    simp only [bind_eq_ok_iff] at found
    obtain ⟨_, _, ⟨⟩⟩ := found
    exact stands_nil
  | inputObject fields =>
    simp only [bind_eq_ok_iff] at found
    obtain ⟨values, mapped, ⟨⟩⟩ := found
    exact stands_of_inputs mapped

end Standing

section Runs
variable {kinds : Kinds} {progress next result : Progress} {definition : Definition}
  {definitions : List Definition}

theorem mem_leaves_extended {fields : List Field} {interfaces : List TypeRef} {type : NamedType}
    {leaf : TypeRef} : leaf ∈ (extended fields interfaces type).leaves ↔
      leaf ∈ type.leaves ∨ leaf ∈ fields.flatMap Field.leaves := by
  simp only [NamedType.leaves, extended, Option.getD_some, List.flatMap_append, List.mem_append]
  exact or_right_comm

theorem mem_leaves_changeFirst {name : String} {change : NamedType → NamedType} {leaf : TypeRef}
    {more : List TypeRef} (adds : ∀ type, leaf ∈ (change type).leaves ↔ leaf ∈ type.leaves ∨ leaf ∈ more)
    {types : List NamedType} (known : name ∈ types.map NamedType.name) :
    leaf ∈ (changeFirst name change types).flatMap NamedType.leaves ↔
      leaf ∈ types.flatMap NamedType.leaves ∨ leaf ∈ more := by
  induction types with
  | nil => cases known
  | cons first types ih =>
    unfold changeFirst
    split_ifs with same
    · simp only [List.flatMap_cons, List.mem_append, adds]
      exact or_right_comm
    · have behind : name ∈ types.map NamedType.name :=
        (List.mem_cons.mp known).resolve_left fun here => same here.symm
      simp only [List.flatMap_cons, List.mem_append, ih behind, or_assoc]

/-- A definition adds the leaves that its names stand for. -/
theorem Added.leaves (added : Added kinds progress definition next) {leaf : TypeRef} :
    leaf ∈ next.types.flatMap NamedType.leaves ↔
      leaf ∈ progress.types.flatMap NamedType.leaves ∨
        ∃ name ∈ definition.leafNames, kinds.leaf name = .ok leaf := by
  cases added with
  | roots | inert => simp [Definition.leafNames]
  | type found =>
    rw [List.flatMap_append, List.mem_append, List.flatMap_singleton, stands_of_namedType found leaf]
    rfl
  | extension known eachField eachInterface =>
    rw [mem_leaves_changeFirst (fun _ => mem_leaves_extended) known, stands_of_fields eachField leaf]
    rfl

/-- The leaves of a run are those that the names in its definitions stand for. -/
theorem stands_of_run (run : definitions.foldlM (Progress.add kinds) Progress.start = .ok result) :
    kinds.Stands (definitions.flatMap Definition.leafNames) (result.types.flatMap NamedType.leaves) := by
  refine run_induction (motive := fun done progress =>
    kinds.Stands (done.flatMap Definition.leafNames) (progress.types.flatMap NamedType.leaves))
    stands_nil ?_ run
  intro done progress definition next before added leaf
  simp only [added.leaves, before leaf, List.flatMap_append, List.flatMap_singleton, List.mem_append,
    or_and_right, exists_or]

end Runs

section Implied
variable {types : List NamedType} {name : String}

theorem mem_impliedScalars {type : NamedType} : type ∈ impliedScalars types ↔
    (type.name ∈ builtinScalars ∧ type.name ∉ types.map NamedType.name ∧
      (type.name ∈ alwaysPresent ∨ type.name ∈ types.flatMap NamedType.leafNames)) ∧
      type = NamedType.bare .scalar type.name none := by
  simp only [impliedScalars, List.mem_map, List.mem_filter, Bool.and_eq_true, Bool.or_eq_true,
    Bool.not_eq_true', List.any_eq_false, beq_iff_eq, List.contains_iff_mem]
  constructor
  · rintro ⟨name, ⟨builtin, undefined, used⟩, rfl⟩
    exact ⟨⟨builtin, by simpa [NamedType.bare] using undefined, used⟩, rfl⟩
  · rintro ⟨⟨builtin, undefined, used⟩, same⟩
    exact ⟨type.name, ⟨builtin, by simpa using undefined, used⟩, same.symm⟩

theorem nodup_impliedScalars : ((impliedScalars types).map NamedType.name).Nodup := by
  have names : (impliedScalars types).map NamedType.name = builtinScalars.filter fun name =>
      !(types.any (·.name == name)) &&
        (alwaysPresent.contains name || (types.flatMap NamedType.leafNames).contains name) := by
    simp [impliedScalars, Function.comp_def, NamedType.bare]
  rw [names]
  exact List.Nodup.filter _ (by decide)

/-- A built-in scalar is there if it is defined, used or always there. -/
theorem mem_names_iff (builtin : name ∈ builtinScalars) :
    name ∈ (types ++ impliedScalars types).map NamedType.name ↔
      name ∈ types.map NamedType.name ∨ name ∈ alwaysPresent ∨ name ∈ types.flatMap NamedType.leafNames := by
  rw [List.map_append, List.mem_append]
  constructor
  · rintro (defined | implied)
    · exact .inl defined
    · obtain ⟨type, member, rfl⟩ := List.mem_map.mp implied
      exact .inr (mem_impliedScalars.mp member).1.2.2
  · rintro (defined | used)
    · exact .inl defined
    · by_cases defined : name ∈ types.map NamedType.name
      · exact .inl defined
      · exact .inr (List.mem_map.mpr ⟨NamedType.bare .scalar name none,
          mem_impliedScalars.mpr ⟨⟨builtin, defined, used⟩, rfl⟩, rfl⟩)

theorem leaves_append_impliedScalars :
    (types ++ impliedScalars types).flatMap NamedType.leaves = types.flatMap NamedType.leaves := by
  rw [List.flatMap_append, List.append_right_eq_self, List.flatMap_eq_nil_iff]
  intro type member
  rw [(mem_impliedScalars.mp member).2]
  rfl

theorem leafNames_eq_map (types : List NamedType) :
    types.flatMap NamedType.leafNames = (types.flatMap NamedType.leaves).map TypeRef.name := by
  rw [List.map_flatMap]
  exact List.flatMap_congr fun type _ => (names_leaves type).symm

end Implied

section Targets
variable {definitions : List Definition} {name : String} {kind : TypeKind}

/-- A kind is that of a definition of its name or, if there is none, that of a built-in scalar. -/
theorem of_lookup_kindsOf (found : (kindsOf definitions).lookup name = some kind) :
    (name, kind) ∈ definitions.filterMap Definition.kindEntry? ∨
      name ∉ declaredNames definitions ∧ name ∈ builtinScalars ∧ kind = .scalar := by
  rw [kindsOf, List.lookup_append, Option.or_eq_some_iff] at found
  rcases found with defined | ⟨undefined, builtin⟩
  · obtain ⟨before, behind, same, -⟩ := List.lookup_eq_some_iff.mp defined
    exact .inl (List.mem_reverse.mp (same ▸ List.mem_append_right _ List.mem_cons_self))
  · obtain ⟨before, behind, same, -⟩ := List.lookup_eq_some_iff.mp builtin
    have listed := same ▸ List.mem_append_right before List.mem_cons_self
    obtain ⟨scalar, member, ⟨⟩⟩ := List.mem_map.mp listed
    refine .inr ⟨fun defined => ?_, member, rfl⟩
    obtain ⟨entry, inside, named⟩ := List.mem_map.mp defined
    have other := List.lookup_eq_none_iff.mp undefined entry (List.mem_reverse.mpr inside)
    exact absurd named.symm (bne_iff_ne.mp other)

variable {result : Progress}
  (run : definitions.foldlM (Progress.add (kindsOf definitions)) Progress.start = .ok result)
include run

/-- The types of a run use the names that its definitions use. -/
theorem mem_leafNames_iff : name ∈ result.types.flatMap NamedType.leafNames ↔
    ∃ definition ∈ definitions, name ∈ definition.leafNames := by
  have stands := stands_of_run run
  rw [leafNames_eq_map, ← List.mem_flatMap]
  constructor
  · intro member
    obtain ⟨leaf, inside, rfl⟩ := List.mem_map.mp member
    obtain ⟨name, used, found⟩ := (stands leaf).mp inside
    obtain ⟨kind, -, rfl⟩ := leaf_eq_ok_iff.mp found
    exact used
  · intro used
    obtain ⟨definition, member, inside⟩ := List.mem_flatMap.mp used
    obtain ⟨leaf, found⟩ := exists_leaf_iff.mpr
      ((exists_run_iff.mp ⟨result, run⟩).1 definition member name (List.mem_append_left _ inside))
    refine List.mem_map.mpr ⟨leaf, (stands leaf).mpr ⟨name, used, found⟩, ?_⟩
    obtain ⟨kind, -, rfl⟩ := leaf_eq_ok_iff.mp found
    rfl

/-- Every leaf of a run is the name of a type with the type's kind. -/
theorem exists_target {leaf : TypeRef} (member : leaf ∈ result.types.flatMap NamedType.leaves) :
    ∃ target ∈ result.types ++ impliedScalars result.types,
      leaf = .leaf target.kind (some target.name) := by
  obtain ⟨name, used, found⟩ := (stands_of_run run leaf).mp member
  obtain ⟨kind, known, rfl⟩ := leaf_eq_ok_iff.mp found
  rcases of_lookup_kindsOf known with defined | ⟨undefined, builtin, rfl⟩
  · rw [← entries_of_run run] at defined
    obtain ⟨target, inside, ⟨⟩⟩ := List.mem_map.mp defined
    exact ⟨target, List.mem_append_left _ inside, rfl⟩
  · rw [← names_of_run run] at undefined
    have implied : NamedType.bare .scalar name none ∈ impliedScalars result.types :=
      mem_impliedScalars.mpr
        ⟨⟨builtin, undefined, .inr ((mem_leafNames_iff run).mpr (List.mem_flatMap.mp used))⟩, rfl⟩
    exact ⟨_, List.mem_append_right _ implied, rfl⟩

end Targets

end Definitions

section Schemas
variable {definitions : List Definition} {schema : Schema} {text : String}

/-- What a schema refers to is there, and of the built-in scalars those that it needs. -/
structure Schema.Resolves (schema : Schema) (definitions : List Definition) : Prop where
  used : ∀ definition ∈ definitions, ∀ name ∈ definition.usedNames,
    name ∈ declaredNames definitions ∨ name ∈ builtinScalars
  named : ∀ name, name ∈ schema.types.flatMap NamedType.leafNames ↔
    ∃ definition ∈ definitions, name ∈ definition.leafNames
  targets : ∀ type ∈ schema.types, ∀ leaf ∈ type.leaves,
    ∃ target ∈ schema.types, leaf = .leaf target.kind (some target.name)
  behind : ∃ declared implied, schema.types = declared ++ implied ∧
    declared.map NamedType.entry = definitions.filterMap Definition.kindEntry? ∧
      (implied.map NamedType.name).Nodup ∧ ∀ type ∈ implied, type = NamedType.bare .scalar type.name none ∧
        type.name ∈ builtinScalars ∧ type.name ∉ declaredNames definitions
  always : ∀ name ∈ ["String", "Boolean"], name ∈ schema.types.map NamedType.name
  needed : ∀ name ∈ ["Int", "Float", "ID"], name ∈ schema.types.map NamedType.name ↔
    name ∈ declaredNames definitions ∨ name ∈ schema.types.flatMap NamedType.leafNames

theorem resolves_of_schemaOf (described : schemaOf definitions = .ok schema) :
    schema.Resolves definitions := by
  obtain ⟨used, -⟩ := exists_schemaOf_iff.mp ⟨schema, described⟩
  obtain ⟨progress, run, rfl⟩ := schemaOf_eq_ok_iff.mp described
  have names := names_of_run run
  -- The scalars that are implied have no members, so they use no names.
  have leafNames : (progress.types ++ impliedScalars progress.types).flatMap NamedType.leafNames =
      progress.types.flatMap NamedType.leafNames := by
    rw [leafNames_eq_map, leaves_append_impliedScalars, ← leafNames_eq_map]
  refine ⟨used, ?named, ?targets, ?behind, ?always, ?needed⟩
  case named =>
    intro name
    rw [resolved, leafNames]
    exact mem_leafNames_iff run
  case targets =>
    intro type member leaf inside
    refine exists_target run ?_
    rw [← leaves_append_impliedScalars]
    exact List.mem_flatMap.mpr ⟨type, member, inside⟩
  case behind =>
    refine ⟨_, _, rfl, entries_of_run run, nodup_impliedScalars, ?_⟩
    intro type member
    obtain ⟨⟨builtin, undefined, -⟩, bare⟩ := mem_impliedScalars.mp member
    exact ⟨bare, builtin, names ▸ undefined⟩
  case always =>
    intro name member
    have builtin : name ∈ builtinScalars := (by decide : ∀ name ∈ alwaysPresent, name ∈ builtinScalars) name member
    exact (mem_names_iff builtin).mpr (.inr (.inl member))
  case needed =>
    intro name member
    obtain ⟨builtin, sometimes⟩ := (by decide : ∀ name ∈ ["Int", "Float", "ID"],
      name ∈ builtinScalars ∧ name ∉ alwaysPresent) name member
    rw [resolved, leafNames, mem_names_iff builtin, names]
    simp only [sometimes, false_or]

/-- An accepted text resolves: all names that it uses are defined or built in, and everything that its
schema refers to is in the schema. -/
theorem accepted_resolves (accepted : Schema.ofDefinitions text = .ok schema) :
    ∃ definitions, read? text = some definitions ∧ schema.Resolves definitions := by
  obtain ⟨definitions, read, described⟩ := ofDefinitions_eq_ok_iff.mp accepted
  exact ⟨definitions, read, resolves_of_schemaOf described⟩

def albumsText : String :=
  "type Query { albums(first: Int = 10): [Album!]! } type Album extend type Album { id: ID }"

theorem albumsText_resolves : ∃ schema, Schema.ofDefinitions albumsText = .ok schema ∧
    schema.types.map NamedType.name = ["Query", "Album", "String", "Int", "Boolean", "ID"] ∧
      ∃ definitions, read? albumsText = some definitions ∧ schema.Resolves definitions := by
  have checked : (Schema.ofDefinitions albumsText).toOption.map (·.types.map NamedType.name) =
      some ["Query", "Album", "String", "Int", "Boolean", "ID"] := by decide +kernel
  obtain ⟨schema, accepted, names⟩ := Option.map_eq_some_iff.mp checked
  have accepted := toOption_eq_some_iff.mp accepted
  exact ⟨schema, accepted, names, accepted_resolves accepted⟩

end Schemas

end TypedClient.GraphQl
