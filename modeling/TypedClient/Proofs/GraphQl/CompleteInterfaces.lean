import TypedClient.Proofs.GraphQl.Interfaces

/-! Which interfaces a schema gets, and what their members are.

An interface is written for the first object type of each name, and a member for the first field of
each name in it. Only these must be mapped: what is left out may refer to anything.
-/

set_option autoImplicit false

namespace TypedClient.GraphQl

open Text (capitalize)
open TypeScript (Declaration TypeExpr)

section References

def wrappingKinds : List TypeKind := [.list, .nonNull]

def TypeRef.wrappers : TypeRef → List TypeKind
  | leaf _ _ => []
  | wrapper kind _ inner => if kind ∈ wrappingKinds then kind :: inner.wrappers else []

/-- The kind and the name of the layer that is wrapped. It is a wrapping one itself if there is nothing
in it. -/
def TypeRef.base : TypeRef → TypeKind × String
  | leaf kind name => (kind, name.getD "")
  | wrapper kind name inner => if kind ∈ wrappingKinds then inner.base else (kind, name.getD "")

def knownScalars : List (String × TypeExpr) :=
  [("String", .string), ("ID", .string), ("Date", .string), ("DateTime", .string), ("Int", .number),
    ("Float", .number), ("Boolean", .boolean)]

def baseType? : TypeKind × String → Option TypeExpr
  | (.object, name) => some (.reference (capitalize name))
  | (.scalar, name) => knownScalars.lookup name
  | _ => none

def TypeRef.memberType? (type : TypeRef) : Option TypeExpr :=
  (baseType? type.base).map TypeExpr.array^[type.wrappers.count .list]

/-- Every list and every non-null layer wraps another, and what they wrap is an object or a known scalar. -/
def TypeRef.Maps (type : TypeRef) : Prop :=
  type.base.1 ∉ wrappingKinds ∧ (type.base.1 = .object ∨
    (type.base.1 = .scalar ∧ type.base.2 ∈ knownScalars.map Prod.fst))

variable {kind : TypeKind} {name : String} {type : TypeRef} {mapped : TypeExpr}

theorem scalarType_eq_ok_iff : scalarType name = .ok mapped ↔ knownScalars.lookup name = some mapped := by
  have known {type : TypeExpr} (found : knownScalars.lookup name = some type) :
      (Except.ok type : Except Fault TypeExpr) = .ok mapped ↔ knownScalars.lookup name = some mapped := by
    rw [found, Except.ok.injEq, Option.some.injEq]
  -- Each branch gives the type that its names have in the table.
  unfold scalarType
  split_ifs with text number boolean
  · have listed : name = "String" ∨ name = "ID" ∨ name = "Date" ∨ name = "DateTime" := by simpa using text
    rcases listed with rfl | rfl | rfl | rfl <;> exact known rfl
  · have listed : name = "Int" ∨ name = "Float" := by simpa using number
    rcases listed with rfl | rfl <;> exact known rfl
  · subst boolean
    exact known rfl
  · have unknown : knownScalars.lookup name = none := by
      simp only [List.contains_eq_mem, List.mem_cons, List.not_mem_nil, or_false, decide_eq_true_eq,
        not_or] at text number
      rw [List.lookup_eq_none_iff]
      simp [knownScalars, text, number, boolean]
    simp [unknown]

theorem leafType_eq_ok_iff : leafType kind name = .ok mapped ↔ baseType? (kind, name) = some mapped := by
  cases kind with
  | object => simp [leafType, baseType?]
  | scalar => exact scalarType_eq_ok_iff
  | _ => simp [leafType, baseType?]

theorem type_eq_ok_iff : type.type = .ok mapped ↔ type.memberType? = some mapped := by
  induction type generalizing mapped with
  | leaf kind name =>
    rw [TypeRef.type, leafType_eq_ok_iff, TypeRef.memberType?, TypeRef.wrappers, List.count_nil,
      Function.iterate_zero, Option.map_id_fun, id_eq, TypeRef.base]
  | wrapper kind name inner ih =>
    by_cases wraps : kind ∈ wrappingKinds
    · rw [TypeRef.memberType?, TypeRef.wrappers, if_pos wraps, TypeRef.base, if_pos wraps]
      have either : kind = .list ∨ kind = .nonNull := by simpa [wrappingKinds] using wraps
      rcases either with rfl | rfl
      · rw [TypeRef.type, map_eq_ok_iff, List.count_cons_self]
        simp only [ih, TypeRef.memberType?, Function.iterate_succ', Option.map_eq_some_iff]
        constructor
        · rintro ⟨_, ⟨base, found, rfl⟩, rfl⟩
          exact ⟨base, found, rfl⟩
        · rintro ⟨base, found, rfl⟩
          exact ⟨_, ⟨base, found, rfl⟩, rfl⟩
      · rw [TypeRef.type, ih, TypeRef.memberType?, List.count_cons_of_ne (by decide)]
    · -- What has any other kind is mapped by its name, whatever it wraps.
      have named : TypeRef.type (.wrapper kind name inner) = leafType kind (name.getD "") := by
        cases kind <;> first | rfl | exact absurd (by decide) wraps
      rw [named, leafType_eq_ok_iff, TypeRef.memberType?, TypeRef.wrappers, if_neg wraps, List.count_nil,
        Function.iterate_zero, Option.map_id_fun, id_eq, TypeRef.base, if_neg wraps]

theorem exists_baseType_iff {base : TypeKind × String} : (∃ given, baseType? base = some given) ↔
    base.1 ∉ wrappingKinds ∧ (base.1 = .object ∨
      (base.1 = .scalar ∧ base.2 ∈ knownScalars.map Prod.fst)) := by
  obtain ⟨kind, name⟩ := base
  cases kind with
  | object => simp [baseType?, wrappingKinds]
  | scalar =>
    simp only [baseType?, ← Option.isSome_iff_exists, List.lookup_isSome_iff]
    simp [wrappingKinds]
  | _ => simp [baseType?]

theorem exists_memberType_iff : (∃ given, type.memberType? = some given) ↔ type.Maps := by
  rw [TypeRef.Maps, ← exists_baseType_iff]
  simp only [TypeRef.memberType?, ← Option.isSome_iff_exists, Option.isSome_map]

end References

section Declarations
variable {schema : Schema} {type : NamedType} {declaration : Declaration} {declarations : List Declaration}

def NamedType.leadingFields (type : NamedType) : List Field :=
  leading (fun first second => first.name == second.name) (type.fields.getD [])

/-- The object types, in order, but for those of introspection, those that are skipped, and those whose
name is that of one before them once it has a capital. -/
def Schema.eligibleTypes (schema : Schema) : List NamedType :=
  leading (fun first second => capitalize first.name == capitalize second.name)
    (schema.types.filter fun type =>
      type.kind = .object ∧ isOwnName type.name = false ∧ type.name ∉ skippedObjects)

structure IsMemberOf (field : Field) (member : TypeScript.Field) : Prop where
  name : member.name = field.name
  optional : member.optional = true
  type : field.type.memberType? = some member.type

/-- The declaration is an interface named like the type, with a member for the first field of every name. -/
def IsInterfaceOf (type : NamedType) (declaration : Declaration) : Prop :=
  declaration.name = capitalize type.name ∧ ∃ members, declaration.body = .interface members ∧
    List.Forall₂ IsMemberOf type.leadingFields members

theorem interfaceTypes_eq (schema : Schema) : schema.interfaceTypes = schema.eligibleTypes := by
  rw [Schema.interfaceTypes, firstOfEach_eq_leading, Schema.userTypes, List.filter_filter,
    Schema.eligibleTypes]
  congr 1
  refine List.filter_congr fun type _ => ?_
  rw [Bool.eq_iff_iff]
  simp [NamedType.hasInterface, and_assoc, and_comm]

theorem property_eq_ok_iff {field : Field} {member : TypeScript.Field} :
    field.property = .ok member ↔ IsMemberOf field member := by
  unfold Field.property
  simp only [bind_eq_ok_iff, type_eq_ok_iff]
  constructor
  · rintro ⟨type, mapped, ⟨⟩⟩
    exact ⟨rfl, rfl, mapped⟩
  · obtain ⟨name, type, optional⟩ := member
    rintro ⟨rfl, rfl, mapped⟩
    exact ⟨type, mapped, rfl⟩

theorem declaration_eq_ok_iff_isInterfaceOf :
    type.declaration = .ok declaration ↔ IsInterfaceOf type declaration := by
  rw [declaration_eq_ok_iff, firstOfEach_eq_leading]
  simp only [mapM_eq_ok_iff, property_eq_ok_iff]
  constructor
  · rintro ⟨members, each, rfl⟩
    exact ⟨rfl, members, rfl, each⟩
  · obtain ⟨name, body⟩ := declaration
    rintro ⟨rfl, members, rfl, each⟩
    exact ⟨members, each, rfl⟩

theorem declarations_eq_ok_iff : schema.declarations = .ok declarations ↔
    List.Forall₂ IsInterfaceOf schema.eligibleTypes declarations := by
  rw [Schema.declarations, interfaceTypes_eq, mapM_eq_ok_iff]
  simp only [declaration_eq_ok_iff_isInterfaceOf]

theorem exists_declaration_iff :
    (∃ declaration, type.declaration = .ok declaration) ↔ ∀ field ∈ type.leadingFields, field.type.Maps := by
  have fields : (∃ declaration, type.declaration = .ok declaration) ↔
      ∃ members, type.leadingFields.mapM Field.property = .ok members := by
    simp only [declaration_eq_ok_iff, firstOfEach_eq_leading]
    exact ⟨fun ⟨_, members, mapped, _⟩ => ⟨members, mapped⟩, fun ⟨members, mapped⟩ => ⟨_, members, mapped, rfl⟩⟩
  -- Nothing but the type of a field can keep it from being a member.
  rw [fields, exists_mapM_ok_iff]
  refine forall₂_congr fun field _ => ?_
  rw [← exists_memberType_iff]
  simp only [property_eq_ok_iff]
  exact ⟨fun ⟨member, found⟩ => ⟨member.type, found.type⟩,
    fun ⟨mapped, found⟩ => ⟨⟨field.name, mapped, true⟩, rfl, rfl, found⟩⟩

theorem nodup_names_of_forall₂ (each : List.Forall₂ IsInterfaceOf schema.eligibleTypes declarations) :
    (declarations.map Declaration.name).Nodup := by
  have names : declarations.map Declaration.name =
      schema.eligibleTypes.map fun type => capitalize type.name :=
    map_eq_map_of_forall₂ (each.flip.imp fun _ _ found => found.1)
  rw [names, List.Nodup, List.pairwise_map]
  exact pairwise_leading.imp fun apart => by simpa using apart

/-- A schema has interfaces if the first field of each name of every eligible type can be mapped. They are
then one for each of these types, with different names. -/
theorem declarations_complete (schema : Schema) :
    ((∃ declarations, schema.declarations = .ok declarations) ↔
      ∀ type ∈ schema.eligibleTypes, ∀ field ∈ type.leadingFields, field.type.Maps) ∧
    ∀ declarations, schema.declarations = .ok declarations ↔
      List.Forall₂ IsInterfaceOf schema.eligibleTypes declarations ∧
        (declarations.map Declaration.name).Nodup := by
  constructor
  · rw [Schema.declarations, interfaceTypes_eq, exists_mapM_ok_iff]
    simp only [exists_declaration_iff]
  · intro declarations
    rw [declarations_eq_ok_iff, iff_self_and]
    exact nodup_names_of_forall₂

end Declarations

end TypedClient.GraphQl
