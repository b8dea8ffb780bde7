import TypedClient.Proofs.GraphQl.Roots
import TypedClient.Proofs.GraphQl.Steps

/-! Whether the schema of an accepted text is accepted again when it is printed. -/

set_option autoImplicit false

namespace TypedClient.GraphQl

open Definitions

section Progress
variable {kinds : Kinds} {definitions : List Definition} {progress result : Progress}

structure Definitions.Progress.Settled (kinds : Kinds) (progress : Progress) : Prop where
  types : ∀ type ∈ progress.types, type.Settled kinds.Declares
  roots : progress.roots.Sound

theorem Definitions.Progress.Settled.of_added {definition : Definition} (settled : progress.Settled kinds)
    (sound : definition.Sound)
    (printable : ∀ value ∈ definition.defaults, ∀ number, value.Has number → number.Printable)
    (added : Added kinds progress definition result) : result.Settled kinds := by
  cases added with
  | roots => exact ⟨settled.types, sound⟩
  | type found =>
    refine ⟨fun other member => ?_, settled.roots⟩
    rcases List.mem_append.mp member with member | member
    · exact settled.types other member
    · obtain rfl := List.mem_singleton.mp member
      exact settled_of_namedType sound.1 sound.2 printable found
  | extension known eachField eachInterface =>
    refine ⟨fun type member => ?_, settled.roots⟩
    rcases mem_changeFirst member with earlier | ⟨old, earlier, rfl⟩
    · exact settled.types type earlier
    · have before := settled.types old earlier
      have moreFields := settled_of_fields sound.2 printable eachField
      have moreInterfaces := settled_of_leaves sound.1 eachInterface
      refine { before with interfaces := fun interface inside => ?_, fields := fun field inside => ?_ }
      · rcases List.mem_append.mp inside with inside | inside
        · exact before.interfaces interface inside
        · exact moreInterfaces interface inside
      · rcases List.mem_append.mp inside with inside | inside
        · exact before.fields field inside
        · exact moreFields field inside
  | inert => exact settled

theorem settled_of_run (sound : ∀ definition ∈ definitions, definition.Sound)
    (printable : ∀ definition ∈ definitions, ∀ value ∈ definition.defaults, ∀ number,
      value.Has number → number.Printable)
    (run : definitions.foldlM (Progress.add kinds) Progress.start = .ok result) : result.Settled kinds := by
  refine run_induction (motive := fun done progress => (∀ definition ∈ done, definition.Sound ∧
    ∀ value ∈ definition.defaults, ∀ number, value.Has number → number.Printable) → progress.Settled kinds)
    ?start ?step run fun definition member => ⟨sound definition member, printable definition member⟩
  case start => exact fun _ => ⟨by simp [Progress.start], ⟨nofun, nofun, nofun⟩⟩
  case step =>
    intro done progress definition next before added each
    obtain ⟨others, last⟩ := List.forall_mem_append.mp each
    obtain ⟨sound, printable⟩ := last definition (List.mem_singleton_self _)
    exact (before others).of_added sound printable added

end Progress

section Schemas
variable {definitions : List Definition} {schema : Schema}

/-- The names that printed types may use: those of printed types, and those that are built in. -/
def Schema.Provides (schema : Schema) (name : String) : Prop :=
  name ∈ schema.declaredTypes.map NamedType.name ∨ name ∈ builtinScalars

theorem mem_printedTypes {type : NamedType} : type ∈ schema.printedTypes ↔
    type ∈ schema.types ∧ isOwnName type.name = false ∧ type.isBuiltin = false := by
  simp only [Schema.printedTypes, Schema.userTypes, List.mem_filter, Bool.not_eq_true', and_assoc]

theorem isBuiltin_of_implied {types : List NamedType} {type : NamedType}
    (member : type ∈ impliedScalars types) : type.isBuiltin = true := by
  obtain ⟨name, listed, rfl⟩ := List.mem_map.mp member
  have builtin := (List.mem_filter.mp listed).1
  simpa [NamedType.isBuiltin, NamedType.bare] using builtin

theorem legal_rootName? {types : List NamedType} {explicit : Option String} {usual name : String}
    (legal : ∀ name ∈ explicit, isName name = true) (usualLegal : isName usual = true)
    (found : rootName? types explicit usual = some name) : isName name = true := by
  unfold rootName? at found
  cases explicit with
  | some given =>
    cases found
    exact legal _ rfl
  | none =>
    obtain ⟨-, same⟩ := Option.ite_none_right_eq_some.mp found
    cases same
    exact usualLegal

/-- The types of an accepted schema can be printed, and all that they use is printed with them. -/
theorem settled_of_schemaOf (sound : ∀ definition ∈ definitions, definition.Sound)
    (printable : ∀ definition ∈ definitions, ∀ value ∈ definition.defaults, ∀ number,
      value.Has number → number.Printable)
    (described : schemaOf definitions = .ok schema)
    (noOwn : ∀ type ∈ schema.types, isOwnName type.name = false) :
    (∀ type ∈ schema.printedTypes, type.Settled schema.Provides) ∧
      ∀ root ∈ schema.presentRoots, isName root.2 = true := by
  obtain ⟨progress, run, same⟩ := schemaOf_eq_ok_iff.mp described
  have settled := settled_of_run sound printable run
  have types : schema.types = progress.types ++ impliedScalars progress.types := by
    cases same
    rfl
  -- A name that is declared belongs to a type, which is printed unless it is built in.
  have provided : ∀ name, (kindsOf definitions).Declares name → schema.Provides name := by
    intro name declared
    rcases declares_kindsOf_iff.mp declared with defined | builtin
    · rw [← names_of_run run] at defined
      obtain ⟨type, member, rfl⟩ := List.mem_map.mp defined
      have inside : type ∈ schema.types := types ▸ List.mem_append_left _ member
      cases builtin : type.isBuiltin with
      | true =>
        simp only [NamedType.isBuiltin, Bool.and_eq_true, List.contains_iff_mem] at builtin
        exact .inr builtin.2
      | false =>
        have printed := mem_printedTypes.mpr ⟨inside, noOwn type inside, builtin⟩
        exact .inl (List.mem_map_of_mem (List.mem_filter.mpr ⟨printed, (settled.types type member).kind⟩))
    · exact .inr builtin
  constructor
  · intro type printed
    obtain ⟨inside, -, builtin⟩ := mem_printedTypes.mp printed
    rw [types] at inside
    rcases List.mem_append.mp inside with member | member
    · exact (settled.types type member).mono provided
    · rw [isBuiltin_of_implied member] at builtin
      cases builtin
  · cases same
    intro root member
    obtain ⟨⟨operation, found, usual⟩, listed, present⟩ := List.mem_filterMap.mp member
    obtain ⟨name, rfl, rfl⟩ := Option.map_eq_some_iff.mp present
    simp only [Schema.roots, List.mem_cons, Prod.mk.injEq, List.not_mem_nil, or_false] at listed
    rcases listed with ⟨-, given, -⟩ | ⟨-, given, -⟩ | ⟨-, given, -⟩
    · exact legal_rootName? settled.roots.query (by decide) given.symm
    · exact legal_rootName? settled.roots.mutation (by decide) given.symm
    · exact legal_rootName? settled.roots.subscription (by decide) given.symm

end Schemas

section Names
variable {declared : String → Prop} {meaning : Meaning}

theorem Field.Settled.names_outline {field : Field} (settled : field.Settled declared) :
    ∀ name ∈ (field.outline meaning).leafNames, declared name := by
  refine List.forall_mem_cons.mpr ⟨settled.type.known, List.forall_mem_map.mpr fun input member => ?_⟩
  obtain ⟨argument, inside, rfl⟩ := List.mem_map.mp member
  exact (settled.arguments argument inside).type.known

theorem NamedType.Settled.names_outline {type : NamedType} (settled : type.Settled declared)
    {outline : TypeDefinition} (given : type.outline? meaning = some outline) :
    (∀ name ∈ outline.content.leafNames, declared name) ∧
      ∀ name ∈ outline.content.memberNames, declared name := by
  have interfaces : ∀ name ∈ (type.interfaces.getD []).map TypeRef.name, declared name :=
    List.forall_mem_map.mpr fun interface member => (settled.interfaces interface member).2
  have members : ∀ name ∈ (type.possibleTypes.getD []).map TypeRef.name, declared name :=
    List.forall_mem_map.mpr fun member inside => (settled.possibleTypes member inside).2
  have fields : ∀ name ∈ ((type.fields.getD []).map (Field.outline meaning)).flatMap
      FieldDefinition.leafNames, declared name := by
    simp only [List.forall_mem_flatMap, List.forall_mem_map]
    exact fun field member => (settled.fields field member).names_outline
  have inputFields : ∀ name ∈ ((type.inputFields.getD []).map (InputValue.memberOutline meaning)).map
      (·.type.leafName), declared name := by
    simp only [List.forall_mem_map]
    exact fun input member => (settled.inputFields input member).type.known
  obtain ⟨content, known, rfl⟩ := Option.map_eq_some_iff.mp given
  unfold NamedType.content? at known
  cases kind : type.kind <;> rw [kind] at known <;> cases known
  case scalar => exact ⟨List.forall_mem_nil _, List.forall_mem_nil _⟩
  case object => exact ⟨fields, interfaces⟩
  case interface => exact ⟨fields, interfaces⟩
  case union => exact ⟨List.forall_mem_nil _, members⟩
  case enumeration => exact ⟨List.forall_mem_nil _, List.forall_mem_nil _⟩
  case inputObject => exact ⟨inputFields, List.forall_mem_nil _⟩

end Names

section Rereading
variable {definitions : List Definition} {schema : Schema}

theorem exists_schemaOf_outline (settled : ∀ type ∈ schema.printedTypes, type.Settled schema.Provides)
    (meaning : Meaning) : ∃ again, schemaOf (schema.outline meaning) = .ok again := by
  have provided : ∀ name, schema.Provides name →
      (kindsOf ((schema.typeOutlines meaning).map .type)).Declares name := by
    intro name given
    rw [declares_iff, kindsOf_types, List.map_append, List.map_reverse, List.map_map, List.map_map,
      List.mem_append, List.mem_reverse]
    rcases given with declared | builtin
    · rw [← names_typeOutlines meaning] at declared
      exact .inl declared
    · exact .inr (by simpa [Function.comp_def] using builtin)
  have types : ∃ types, (schema.typeOutlines meaning).mapM
      (kindsOf ((schema.typeOutlines meaning).map .type)).namedType = .ok types := by
    refine exists_mapM_ok_iff.mpr fun outline member => ?_
    obtain ⟨type, printed, given⟩ := List.mem_filterMap.mp member
    obtain ⟨leaves, members⟩ := (settled type printed).names_outline given
    exact exists_namedType_iff.mpr ⟨fun name inside => provided name (leaves name inside),
      fun name inside => provided name (members name inside)⟩
  obtain ⟨types, found⟩ := types
  exact ⟨_, schemaOf_outline.mpr ⟨types, found, rfl⟩⟩

/-- Something is printed if there is a schema block or a type. -/
theorem tokens_ne_nil_iff (meaning : Meaning)
    (declared : ∀ type ∈ schema.printedTypes, type.isDeclared = true) :
    schema.tokens meaning ≠ [] ↔ schema.hasUnusualRoot = true ∨ schema.printedTypes ≠ [] := by
  unfold Schema.tokens
  cases unusual : schema.hasUnusualRoot with
  | true => simp
  | false =>
    cases types : schema.printedTypes with
    | nil => simp
    | cons type others =>
      obtain ⟨outline, given⟩ : ∃ outline, type.outline? meaning = some outline := by
        have same := type.outline?_eq meaning
        rw [declared type (types ▸ List.mem_cons_self), if_pos rfl] at same
        obtain ⟨outline, given, -⟩ := Option.map_eq_some_iff.mp same
        exact ⟨outline, given⟩
      have first := (NamedType.begins_tokens given).ne_nil
      simp [first]

/-- The schema of an accepted text is accepted again exactly if something is printed and no braces are
empty, provided that its unions have members and the numbers in its default values can be written. -/
theorem accepted_again_iff {text : String} (read : read? text = some definitions)
    (described : schemaOf definitions = .ok schema)
    (noOwn : ∀ type ∈ schema.types, isOwnName type.name = false)
    (members : ∀ type ∈ schema.types, type.kind = .union → type.possibleTypes.getD [] ≠ [])
    (printable : ∀ definition ∈ definitions, ∀ value ∈ definition.defaults, ∀ number,
      value.Has number → number.Printable) :
    (∃ again, Schema.ofDefinitions schema.definitions = .ok again) ↔
      (schema.hasUnusualRoot = true ∨ schema.printedTypes ≠ []) ∧
        ∀ type ∈ schema.printedTypes, type.isFilled = true := by
  obtain ⟨settled, roots⟩ := settled_of_schemaOf (sound_of_read? read) printable described noOwn
  have spellable : schema.Spellable := ⟨roots, fun type printed =>
    (settled type printed).formed (members type (mem_printedTypes.mp printed).1)⟩
  obtain ⟨meaning, formed⟩ := spellable.exists_meaning
  have fitting := fits_tokens formed fun type printed => (settled type printed).shallow
  have printed := tokens_ne_nil_iff meaning fun type printed => (settled type printed).kind
  obtain ⟨again, resolved⟩ := exists_schemaOf_outline settled meaning
  unfold Schema.ofDefinitions
  rw [read?_definitions formed, ← printed]
  simp only [fitting, true_and, List.all_eq_true]
  split_ifs with accepted
  · exact ⟨fun _ => accepted, fun _ => ⟨again, resolved⟩⟩
  · exact ⟨nofun, fun accepted' => absurd accepted' accepted⟩

def postsText : String :=
  "schema \x7b query: Root \x7d type Root \x7b posts(first: Int = 10): [Post!]! \x7d type Post extend type Post \x7b id: ID \x7d"

theorem postsText_accepted_again : ∃ schema, Schema.ofDefinitions postsText = .ok schema ∧
    ∃ again, Schema.ofDefinitions schema.definitions = .ok again := by
  have integers : (read? postsText).any (·.all fun definition => definition.defaults.all
      fun value => value matches .integer _) = true := by decide +kernel
  have checked : (Schema.ofDefinitions postsText).toOption.any (fun schema =>
      (schema.types.all fun type => !isOwnName type.name && type.kind != .union) &&
        (schema.hasUnusualRoot && schema.printedTypes.all NamedType.isFilled)) = true := by
    decide +kernel
  cases read : read? postsText with
  | none =>
    rw [read] at integers
    cases integers
  | some definitions =>
    have described : Schema.ofDefinitions postsText = schemaOf definitions := by
      rw [Schema.ofDefinitions, read]
    cases found : schemaOf definitions with
    | error fault =>
      rw [described, found] at checked
      cases checked
    | ok schema =>
      rw [read, Option.any_some] at integers
      simp only [described, found, Except.toOption, Option.any_some, Bool.and_eq_true,
        List.all_eq_true, Bool.not_eq_true', bne_iff_ne] at checked
      obtain ⟨ordinary, unusual, filled⟩ := checked
      refine ⟨schema, described.trans found, (accepted_again_iff read found
        (fun type member => (ordinary type member).1)
        (fun type member union => absurd union (ordinary type member).2) ?_).mpr ⟨.inl unusual, filled⟩⟩
      intro definition member value inside number has
      have integer := List.all_eq_true.mp (List.all_eq_true.mp integers definition member) value inside
      cases has <;> cases integer

def markerText : String := "type Query \x7b marker: Marker \x7d type Marker"

theorem markerText_not_accepted_again : ¬ ∀ (text : String) (schema : Schema),
    Schema.ofDefinitions text = .ok schema →
    (∀ type ∈ schema.types, isOwnName type.name = false) →
    ∃ again, Schema.ofDefinitions schema.definitions = .ok again := by
  intro always
  have rejected : (Schema.ofDefinitions markerText).toOption.any (fun schema =>
      (schema.types.all fun type => !isOwnName type.name) &&
        !(Schema.ofDefinitions schema.definitions).isOk) = true := by decide +kernel
  cases found : Schema.ofDefinitions markerText with
  | error fault =>
    rw [found] at rejected
    cases rejected
  | ok schema =>
    simp only [found, Except.toOption, Option.any_some, Bool.and_eq_true, List.all_eq_true,
      Bool.not_eq_true'] at rejected
    obtain ⟨again, accepted⟩ := always markerText schema found rejected.1
    rw [accepted] at rejected
    cases rejected.2

end Rereading

end TypedClient.GraphQl
