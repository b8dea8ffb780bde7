import Mathlib.Data.List.Induction
import TypedClient.Proofs.GraphQl.Settled

/-! Taking in definitions, one after the other.

What one definition does to the types so far is said once, and what a run of them does follows by
induction. A run succeeds if every name that is used has a kind, wherever its type is defined, and
every extension stands behind its type.
-/

set_option autoImplicit false

namespace TypedClient.GraphQl

def NamedType.entry (type : NamedType) : String × TypeKind := (type.name, type.kind)

namespace Definitions

section Names

def FieldDefinition.leafNames (field : FieldDefinition) : List String :=
  field.type.leafName :: field.arguments.map (·.type.leafName)

def TypeContent.leafNames : TypeContent → List String
  | object _ fields | interface _ fields => fields.flatMap FieldDefinition.leafNames
  | inputObject fields => fields.map (·.type.leafName)
  | scalar | union _ | enumeration _ => []

def TypeContent.memberNames : TypeContent → List String
  | object interfaces _ | interface interfaces _ => interfaces
  | union members => members
  | scalar | enumeration _ | inputObject _ => []

def Definition.leafNames : Definition → List String
  | type definition => definition.content.leafNames
  | objectExtension _ _ fields => fields.flatMap FieldDefinition.leafNames
  | roots _ | inert => []

def Definition.memberNames : Definition → List String
  | type definition => definition.content.memberNames
  | objectExtension _ interfaces _ => interfaces
  | roots _ | inert => []

def Definition.usedNames (definition : Definition) : List String :=
  definition.leafNames ++ definition.memberNames

def declaredNames (definitions : List Definition) : List String :=
  (definitions.filterMap Definition.kindEntry?).map Prod.fst

/-- Every extension stands behind a definition of its type. -/
def InOrder (definitions : List Definition) : Prop :=
  ∀ before name interfaces fields behind,
    definitions = before ++ .objectExtension name interfaces fields :: behind →
      name ∈ declaredNames before

end Names

section Resolving
variable {kinds : Kinds}

theorem exists_leaf_iff {name : String} : (∃ type, kinds.leaf name = .ok type) ↔ kinds.Declares name := by
  simp only [leaf_eq_ok_iff, Kinds.Declares, Option.isSome_iff_exists]
  constructor
  · rintro ⟨_, kind, found, _⟩
    exact ⟨kind, found⟩
  · rintro ⟨kind, found⟩
    exact ⟨_, kind, found, rfl⟩

theorem exists_typeRef_iff {use : TypeUse} :
    (∃ type, kinds.typeRef use = .ok type) ↔ kinds.Declares use.leafName := by
  induction use with
  | named name => exact exists_leaf_iff
  | list item ih | nonNull item ih =>
    rw [TypeUse.leafName, ← ih]
    simp only [Kinds.typeRef, map_eq_ok_iff]
    exact ⟨fun ⟨_, type, found, _⟩ => ⟨type, found⟩, fun ⟨type, found⟩ => ⟨_, type, found, rfl⟩⟩

theorem exists_inputValue_iff {input : InputDefinition} :
    (∃ value, kinds.inputValue input = .ok value) ↔ kinds.Declares input.type.leafName := by
  rw [← exists_typeRef_iff]
  simp only [Kinds.inputValue, bind_eq_ok_iff]
  exact ⟨fun ⟨_, type, found, _⟩ => ⟨type, found⟩, fun ⟨type, found⟩ => ⟨_, type, found, rfl⟩⟩

theorem exists_field_iff {definition : FieldDefinition} :
    (∃ field, kinds.field definition = .ok field) ↔
      ∀ name ∈ definition.leafNames, kinds.Declares name := by
  simp only [FieldDefinition.leafNames, List.forall_mem_cons, List.forall_mem_map,
    ← @exists_typeRef_iff kinds definition.type, ← exists_inputValue_iff, ← exists_mapM_ok_iff]
  simp only [Kinds.field, bind_eq_ok_iff]
  constructor
  · rintro ⟨_, arguments, mapped, type, found, _⟩
    exact ⟨⟨type, found⟩, arguments, mapped⟩
  · rintro ⟨⟨type, found⟩, arguments, mapped⟩
    exact ⟨_, arguments, mapped, type, found, rfl⟩

theorem exists_fields_iff {definitions : List FieldDefinition} :
    (∃ fields, definitions.mapM kinds.field = .ok fields) ↔
      ∀ name ∈ definitions.flatMap FieldDefinition.leafNames, kinds.Declares name := by
  simp only [exists_mapM_ok_iff, exists_field_iff, List.forall_mem_flatMap]

theorem exists_leaves_iff {names : List String} :
    (∃ types, names.mapM kinds.leaf = .ok types) ↔ ∀ name ∈ names, kinds.Declares name := by
  simp only [exists_mapM_ok_iff, exists_leaf_iff]

theorem exists_namedType_iff {definition : TypeDefinition} :
    (∃ type, kinds.namedType definition = .ok type) ↔
      (∀ name ∈ definition.content.leafNames, kinds.Declares name) ∧
        ∀ name ∈ definition.content.memberNames, kinds.Declares name := by
  obtain ⟨name, description, content⟩ := definition
  unfold Kinds.namedType
  -- A type is resolved if and only if its names are; nothing else of it can fail.
  cases content with
  | scalar => exact iff_of_true ⟨_, rfl⟩ ⟨by simp [TypeContent.leafNames], by simp [TypeContent.memberNames]⟩
  | enumeration values =>
    exact iff_of_true ⟨_, rfl⟩ ⟨by simp [TypeContent.leafNames], by simp [TypeContent.memberNames]⟩
  | object interfaces fields | interface interfaces fields =>
    simp only [TypeContent.leafNames, TypeContent.memberNames, ← exists_fields_iff, ← exists_leaves_iff,
      bind_eq_ok_iff]
    constructor
    · rintro ⟨_, fields, mapped, interfaces, found, _⟩
      exact ⟨⟨fields, mapped⟩, interfaces, found⟩
    · rintro ⟨⟨fields, mapped⟩, interfaces, found⟩
      exact ⟨_, fields, mapped, interfaces, found, rfl⟩
  | union members =>
    rw [TypeContent.leafNames, TypeContent.memberNames, and_iff_right (List.forall_mem_nil _),
      ← exists_leaves_iff]
    simp only [bind_eq_ok_iff]
    constructor
    · rintro ⟨_, members, found, _⟩
      exact ⟨members, found⟩
    · rintro ⟨members, found⟩
      exact ⟨_, members, found, rfl⟩
  | inputObject fields =>
    rw [TypeContent.leafNames, TypeContent.memberNames, and_iff_left (List.forall_mem_nil _)]
    simp only [List.forall_mem_map, ← exists_inputValue_iff, ← exists_mapM_ok_iff, bind_eq_ok_iff]
    constructor
    · rintro ⟨_, fields, mapped, _⟩
      exact ⟨fields, mapped⟩
    · rintro ⟨fields, mapped⟩
      exact ⟨_, fields, mapped, rfl⟩

end Resolving

section Steps
variable {kinds : Kinds} {progress next result : Progress} {definition : Definition}
  {definitions : List Definition}

inductive Added (kinds : Kinds) (progress : Progress) : Definition → Progress → Prop where
  | roots {names : RootNames} : Added kinds progress (.roots names) { progress with roots := names }
  | type {definition : TypeDefinition} {type : NamedType} : kinds.namedType definition = .ok type →
      Added kinds progress (.type definition) { progress with types := progress.types ++ [type] }
  | extension {name : String} {interfaces : List String} {fields : List FieldDefinition}
      {moreFields : List Field} {moreInterfaces : List TypeRef} :
      name ∈ progress.types.map NamedType.name → fields.mapM kinds.field = .ok moreFields →
      interfaces.mapM kinds.leaf = .ok moreInterfaces →
      Added kinds progress (.objectExtension name interfaces fields)
        { progress with types := changeFirst name (extended moreFields moreInterfaces) progress.types }
  | inert : Added kinds progress .inert progress

theorem has_iff {name : String} : progress.has name = true ↔ name ∈ progress.types.map NamedType.name := by
  simp [Progress.has]

theorem add_eq_ok_iff : progress.add kinds definition = .ok next ↔ Added kinds progress definition next := by
  constructor
  · intro added
    cases definition with
    | roots names =>
      cases added
      exact .roots
    | type definition =>
      obtain ⟨type, found, ⟨⟩⟩ := bind_eq_ok_iff.mp added
      exact .type found
    | objectExtension name interfaces fields =>
      simp only [Progress.add] at added
      split_ifs at added with known
      obtain ⟨fields, eachField, added⟩ := bind_eq_ok_iff.mp added
      obtain ⟨interfaces, eachInterface, ⟨⟩⟩ := bind_eq_ok_iff.mp added
      exact .extension (has_iff.mp known) eachField eachInterface
    | inert =>
      cases added
      exact .inert
  · intro added
    cases added with
    | roots => rfl
    | type found => exact bind_eq_ok_iff.mpr ⟨_, found, rfl⟩
    | extension known eachField eachInterface =>
      rw [Progress.add, if_pos (has_iff.mpr known)]
      exact bind_eq_ok_iff.mpr ⟨_, eachField, bind_eq_ok_iff.mpr ⟨_, eachInterface, rfl⟩⟩
    | inert => rfl

theorem run_append_singleton {done : List Definition} :
    (done ++ [definition]).foldlM (Progress.add kinds) Progress.start = .ok result ↔
      ∃ progress, done.foldlM (Progress.add kinds) Progress.start = .ok progress ∧
        Added kinds progress definition result := by
  simp only [List.foldlM_append, List.foldlM_cons, List.foldlM_nil, bind_pure, bind_eq_ok_iff, add_eq_ok_iff]

/-- What holds at the start and is kept by every definition holds after all of them. -/
theorem run_induction {motive : List Definition → Progress → Prop} (start : motive [] Progress.start)
    (step : ∀ done progress definition next, motive done progress → Added kinds progress definition next →
      motive (done ++ [definition]) next)
    (run : definitions.foldlM (Progress.add kinds) Progress.start = .ok result) :
    motive definitions result := by
  induction definitions using List.reverseRecOn generalizing result with
  | nil =>
    cases run
    exact start
  | append_singleton done definition ih =>
    obtain ⟨progress, before, added⟩ := run_append_singleton.mp run
    exact step done progress definition result (ih before) added

theorem mem_changeFirst {name : String} {change : NamedType → NamedType} {types : List NamedType}
    {type : NamedType} (member : type ∈ changeFirst name change types) :
    type ∈ types ∨ ∃ old ∈ types, type = change old := by
  induction types with
  | nil => cases member
  | cons first types ih =>
    unfold changeFirst at member
    split_ifs at member
    · rcases List.mem_cons.mp member with rfl | member
      · exact .inr ⟨first, List.mem_cons_self, rfl⟩
      · exact .inl (List.mem_cons_of_mem _ member)
    · rcases List.mem_cons.mp member with rfl | member
      · exact .inl List.mem_cons_self
      · rcases ih member with member | ⟨old, member, same⟩
        · exact .inl (List.mem_cons_of_mem _ member)
        · exact .inr ⟨old, List.mem_cons_of_mem _ member, same⟩

theorem map_changeFirst {α : Type} {key : NamedType → α} {name : String} {change : NamedType → NamedType}
    (keeps : ∀ type, key (change type) = key type) (types : List NamedType) :
    (changeFirst name change types).map key = types.map key := by
  induction types with
  | nil => rfl
  | cons first types ih =>
    unfold changeFirst
    split_ifs
    · rw [List.map_cons, List.map_cons, keeps]
    · rw [List.map_cons, List.map_cons, ih]

theorem entry_of_namedType {definition : TypeDefinition} {type : NamedType}
    (found : kinds.namedType definition = .ok type) :
    type.entry = (definition.name, definition.content.kind) := by
  obtain ⟨name, description, content⟩ := definition
  unfold Kinds.namedType at found
  cases content with
  | scalar | enumeration _ =>
    cases found
    rfl
  | object interfaces fields | interface interfaces fields =>
    simp only [bind_eq_ok_iff] at found
    obtain ⟨_, _, _, _, ⟨⟩⟩ := found
    rfl
  | union _ | inputObject _ =>
    simp only [bind_eq_ok_iff] at found
    obtain ⟨_, _, ⟨⟩⟩ := found
    rfl

/-- A definition adds its name and kind, if it is one of a type. -/
theorem Added.entries (added : Added kinds progress definition next) :
    next.types.map NamedType.entry =
      progress.types.map NamedType.entry ++ definition.kindEntry?.toList := by
  cases added with
  | roots | inert => exact (List.append_nil _).symm
  | type found =>
    rw [List.map_append, List.map_singleton, entry_of_namedType found]
    rfl
  | extension =>
    refine Eq.trans (map_changeFirst ?_ _) (List.append_nil _).symm
    exact fun _ => rfl

/-- The types of a run are those that are defined, in order. -/
theorem entries_of_run (run : definitions.foldlM (Progress.add kinds) Progress.start = .ok result) :
    result.types.map NamedType.entry = definitions.filterMap Definition.kindEntry? := by
  refine run_induction (motive := fun done progress => progress.types.map NamedType.entry =
    done.filterMap Definition.kindEntry?) rfl ?_ run
  intro done progress definition next before added
  rw [added.entries, before, List.filterMap_append]
  cases entry : definition.kindEntry? <;> simp [entry]

theorem names_of_run (run : definitions.foldlM (Progress.add kinds) Progress.start = .ok result) :
    result.types.map NamedType.name = declaredNames definitions := by
  rw [declaredNames, ← entries_of_run run, List.map_map]
  rfl

theorem exists_added_iff : (∃ next, Added kinds progress definition next) ↔
    (∀ name ∈ definition.usedNames, kinds.Declares name) ∧
      ∀ name interfaces fields, definition = .objectExtension name interfaces fields →
        name ∈ progress.types.map NamedType.name := by
  rw [Definition.usedNames, List.forall_mem_append]
  cases definition with
  | roots names =>
    exact iff_of_true ⟨_, .roots⟩ ⟨⟨by simp [Definition.leafNames], by simp [Definition.memberNames]⟩, nofun⟩
  | inert =>
    exact iff_of_true ⟨_, .inert⟩ ⟨⟨by simp [Definition.leafNames], by simp [Definition.memberNames]⟩, nofun⟩
  | type definition =>
    rw [Definition.leafNames, Definition.memberNames, ← exists_namedType_iff, and_iff_left nofun]
    constructor
    · rintro ⟨_, added⟩
      cases added with | type found => exact ⟨_, found⟩
    · rintro ⟨_, found⟩
      exact ⟨_, .type found⟩
  | objectExtension name interfaces fields =>
    rw [Definition.leafNames, Definition.memberNames, ← exists_fields_iff, ← exists_leaves_iff]
    constructor
    · rintro ⟨_, added⟩
      cases added with | extension known eachField eachInterface =>
      refine ⟨⟨⟨_, eachField⟩, _, eachInterface⟩, ?_⟩
      rintro _ _ _ ⟨⟩
      exact known
    · rintro ⟨⟨⟨_, eachField⟩, _, eachInterface⟩, known⟩
      exact ⟨_, .extension (known _ _ _ rfl) eachField eachInterface⟩

theorem inOrder_append_singleton {done : List Definition} : InOrder (done ++ [definition]) ↔
    InOrder done ∧ ∀ name interfaces fields, definition = .objectExtension name interfaces fields →
      name ∈ declaredNames done := by
  constructor
  · intro order
    constructor
    · rintro before name interfaces fields behind rfl
      exact order before name interfaces fields (behind ++ [definition]) (by simp)
    · rintro name interfaces fields rfl
      exact order done name interfaces fields [] rfl
  · rintro ⟨order, last⟩ before name interfaces fields behind same
    rcases List.eq_nil_or_concat behind with rfl | ⟨others, final, rfl⟩
    · obtain ⟨rfl, final⟩ := List.append_inj' same rfl
      exact last name interfaces fields (List.singleton_inj.mp final)
    · rw [List.concat_eq_append, ← List.cons_append, ← List.append_assoc] at same
      exact order before name interfaces fields others (List.append_inj' same rfl).1

/-- A run succeeds if every name that is used has a kind, and every extension stands behind its type. -/
theorem exists_run_iff :
    (∃ result, definitions.foldlM (Progress.add kinds) Progress.start = .ok result) ↔
      (∀ definition ∈ definitions, ∀ name ∈ definition.usedNames, kinds.Declares name) ∧
        InOrder definitions := by
  induction definitions using List.reverseRecOn with
  | nil =>
    refine iff_of_true ⟨Progress.start, rfl⟩ ⟨by simp, ?_⟩
    intro before name interfaces fields behind same
    cases before <;> cases same
  | append_singleton done definition ih =>
    rw [inOrder_append_singleton, List.forall_mem_append, List.forall_mem_singleton]
    simp only [run_append_singleton]
    constructor
    · rintro ⟨next, progress, before, added⟩
      obtain ⟨declared, order⟩ := ih.mp ⟨progress, before⟩
      obtain ⟨last, known⟩ := exists_added_iff.mp ⟨next, added⟩
      rw [names_of_run before] at known
      exact ⟨⟨declared, last⟩, order, known⟩
    · rintro ⟨⟨declared, last⟩, order, known⟩
      obtain ⟨progress, before⟩ := ih.mpr ⟨declared, order⟩
      rw [← names_of_run before] at known
      obtain ⟨next, added⟩ := exists_added_iff.mpr ⟨last, known⟩
      exact ⟨next, progress, before, added⟩

end Steps

section Schemas
variable {definitions : List Definition} {schema : Schema} {text : String}

theorem declares_kindsOf_iff {name : String} : (kindsOf definitions).Declares name ↔
    name ∈ declaredNames definitions ∨ name ∈ builtinScalars := by
  have keys : (kindsOf definitions).map Prod.fst = (declaredNames definitions).reverse ++ builtinScalars := by
    simp [kindsOf, declaredNames, Function.comp_def]
  rw [declares_iff, keys, List.mem_append, List.mem_reverse]

theorem schemaOf_eq_ok_iff : schemaOf definitions = .ok schema ↔
    ∃ progress, definitions.foldlM (Progress.add (kindsOf definitions)) Progress.start = .ok progress ∧
      schema = resolved progress.roots progress.types := by
  unfold schemaOf
  simp only [bind_eq_ok_iff]
  constructor
  · rintro ⟨progress, run, ⟨⟩⟩
    exact ⟨progress, run, rfl⟩
  · rintro ⟨progress, run, rfl⟩
    exact ⟨progress, run, rfl⟩

theorem ofDefinitions_eq_ok_iff : Schema.ofDefinitions text = .ok schema ↔
    ∃ definitions, read? text = some definitions ∧ schemaOf definitions = .ok schema := by
  unfold Schema.ofDefinitions
  cases read? text with
  | none => exact iff_of_false nofun nofun
  | some definitions =>
    constructor
    · exact fun given => ⟨definitions, rfl, given⟩
    · rintro ⟨_, ⟨⟩, given⟩
      exact given

/-- Definitions are accepted if what they use is defined or built in, and every extension stands behind
its type. -/
theorem exists_schemaOf_iff : (∃ schema, schemaOf definitions = .ok schema) ↔
    (∀ definition ∈ definitions, ∀ name ∈ definition.usedNames,
      name ∈ declaredNames definitions ∨ name ∈ builtinScalars) ∧ InOrder definitions := by
  simp only [schemaOf_eq_ok_iff, ← declares_kindsOf_iff, ← exists_run_iff]
  exact ⟨fun ⟨_, progress, run, _⟩ => ⟨progress, run⟩, fun ⟨progress, run⟩ => ⟨_, progress, run, rfl⟩⟩

end Schemas

end Definitions

end TypedClient.GraphQl
