import TypedClient.Proofs.GraphQl.Nesting
import TypedClient.Proofs.GraphQl.Resolving
import TypedClient.Proofs.GraphQl.SoundDefinitions

/-! The types of definitions that are read from a text.

They can be printed, and what they name is defined.
-/

set_option autoImplicit false

namespace TypedClient.GraphQl

open Definitions

section Settled
variable (declared : String → Prop)

def Definitions.TypeUse.leafName : TypeUse → String
  | named name => name
  | list item => item.leafName
  | nonNull type => type.leafName

structure TypeRef.Settled (room : Nat) (type : TypeRef) : Prop where
  proper : type.Proper
  shallow : Balanced room type.tokens
  known : declared type.use.leafName

structure InputValue.Settled (room : Nat) (input : InputValue) : Prop where
  name : isName input.name = true
  type : input.type.Settled declared room
  default : ∀ text ∈ input.default, IsConstant text ∧ Balanced room (sourceTokens text)

structure Field.Settled (field : Field) : Prop where
  name : isName field.name = true
  arguments : ∀ argument ∈ field.arguments, argument.Settled declared 48
  type : field.type.Settled declared 49

/-- All members of a type, whether or not they mean something for its kind. -/
structure NamedType.Settled (type : NamedType) : Prop where
  name : isName type.name = true
  kind : type.isDeclared = true
  interfaces : ∀ interface ∈ type.interfaces.getD [], isName interface.name = true ∧ declared interface.name
  fields : ∀ field ∈ type.fields.getD [], field.Settled declared
  inputFields : ∀ field ∈ type.inputFields.getD [], field.Settled declared 49
  enumValues : ∀ value ∈ type.enumValues.getD [], isName value.name = true
  possibleTypes : ∀ member ∈ type.possibleTypes.getD [], isName member.name = true ∧ declared member.name

end Settled

section Mono
variable {declared other : String → Prop} (weaker : ∀ name, declared name → other name)
include weaker

theorem InputValue.Settled.mono {room : Nat} {input : InputValue}
    (settled : input.Settled declared room) : input.Settled other room :=
  { settled with type := { settled.type with known := weaker _ settled.type.known } }

theorem Field.Settled.mono {field : Field} (settled : field.Settled declared) : field.Settled other :=
  { settled with
    arguments := fun argument member => (settled.arguments argument member).mono weaker
    type := { settled.type with known := weaker _ settled.type.known } }

theorem NamedType.Settled.mono {type : NamedType} (settled : type.Settled declared) :
    type.Settled other :=
  { settled with
    interfaces := fun interface member => (settled.interfaces interface member).imp_right (weaker _)
    fields := fun field member => (settled.fields field member).mono weaker
    inputFields := fun field member => (settled.inputFields field member).mono weaker
    possibleTypes := fun type member => (settled.possibleTypes type member).imp_right (weaker _) }

end Mono

section Printing
variable {declared : String → Prop}

theorem InputValue.Settled.formed {room : Nat} {input : InputValue}
    (settled : input.Settled declared room) : input.Formed :=
  ⟨settled.name, settled.type.proper, fun text given => (settled.default text given).1⟩

theorem InputValue.Settled.isShallow {room : Nat} {input : InputValue}
    (settled : input.Settled declared room) : input.Shallow room :=
  ⟨settled.type.shallow, fun text given => (settled.default text given).2⟩

theorem Field.Settled.formed {field : Field} (settled : field.Settled declared) :
    field.Formed ⟨fun _ => True, fun _ => True⟩ :=
  ⟨settled.name, fun _ _ _ => trivial, fun argument member => (settled.arguments argument member).formed,
    settled.type.proper⟩

theorem NamedType.Settled.shallow {type : NamedType} (settled : type.Settled declared) :
    type.Shallow :=
  ⟨fun field member => ⟨(settled.fields field member).type.shallow,
      fun argument inside => ((settled.fields field member).arguments argument inside).isShallow⟩,
    fun input member => (settled.inputFields input member).isShallow⟩

theorem NamedType.Settled.formed {type : NamedType} (settled : type.Settled declared)
    (members : type.kind = .union → type.possibleTypes.getD [] ≠ []) :
    type.Formed ⟨fun _ => True, fun _ => True⟩ := by
  have printed := settled.kind
  refine ⟨settled.name, fun _ _ _ => trivial, ?_⟩
  unfold NamedType.BodyFormed
  unfold isDeclared at printed
  cases kind : type.kind with
  | scalar => trivial
  | object =>
    exact ⟨fun interface member => (settled.interfaces interface member).1,
      fun field member => (settled.fields field member).formed⟩
  | interface =>
    exact ⟨fun interface member => (settled.interfaces interface member).1,
      fun field member => (settled.fields field member).formed⟩
  | union => exact ⟨members kind, fun member inside => (settled.possibleTypes member inside).1⟩
  | enumeration => exact fun value member => ⟨settled.enumValues value member, fun _ _ _ => trivial⟩
  | inputObject =>
    exact fun field member => ⟨(settled.inputFields field member).formed, fun _ _ _ => trivial⟩
  | list =>
    rw [kind] at printed
    cases printed
  | nonNull =>
    rw [kind] at printed
    cases printed

end Printing

section Resolving
variable {kinds : Kinds}

def Definitions.Kinds.Declares (kinds : Kinds) (name : String) : Prop := (kinds.lookup name).isSome = true

theorem declares_iff {name : String} : kinds.Declares name ↔ name ∈ kinds.map Prod.fst := by
  rw [Kinds.Declares, List.lookup_isSome_iff, List.mem_map]
  simp only [beq_iff_eq, @eq_comm _ name]

theorem leaf_eq_ok_iff {name : String} {type : TypeRef} :
    kinds.leaf name = .ok type ↔ ∃ kind, kinds.lookup name = some kind ∧ type = .leaf kind (some name) := by
  unfold Kinds.leaf
  cases kinds.lookup name with
  | none => simp
  | some kind => simp [eq_comm]

theorem map_eq_ok_iff {α β ε : Type} {f : α → β} {first : Except ε α} {result : β} :
    first.map f = .ok result ↔ ∃ value, first = .ok value ∧ f value = result := by
  cases first <;> simp [Except.map]

theorem settled_of_typeRef {room : Nat} {use : TypeUse} (sound : use.Sound room) {type : TypeRef}
    (found : kinds.typeRef use = .ok type) : type.Settled kinds.Declares room ∧ type.use = use := by
  induction sound generalizing type with
  | @named room name legal =>
    obtain ⟨kind, resolved, rfl⟩ := leaf_eq_ok_iff.mp found
    have declared : kinds.Declares name := by simp [Kinds.Declares, resolved]
    exact ⟨⟨.leaf legal, balanced_name legal .nil, declared⟩, rfl⟩
  | list _ ih =>
    obtain ⟨inner, resolved, rfl⟩ := map_eq_ok_iff.mp found
    obtain ⟨⟨proper, shallow, known⟩, same⟩ := ih resolved
    exact ⟨⟨.list proper, .brackets rfl rfl rfl shallow, known⟩, congrArg TypeUse.list same⟩
  | @nonNull room use _ unforced ih =>
    obtain ⟨inner, resolved, rfl⟩ := map_eq_ok_iff.mp found
    obtain ⟨⟨proper, shallow, known⟩, same⟩ := ih resolved
    have single : inner.isForced = false := by
      cases forced : inner.isForced with
      | false => rfl
      | true =>
        unfold TypeRef.isForced at forced
        split at forced
        · exact absurd same.symm (unforced _)
        · cases forced
    exact ⟨⟨.nonNull proper single, shallow.append (.mark rfl rfl .nil), known⟩,
      congrArg TypeUse.nonNull same⟩

theorem settled_of_inputValue {depth : Nat} {input : InputDefinition} (sound : input.Sound depth)
    (printable : ∀ value ∈ input.default, ∀ number, value.Has number → number.Printable)
    {result : InputValue} (found : kinds.inputValue input = .ok result) :
    result.Settled kinds.Declares (deepest - depth) := by
  unfold Kinds.inputValue at found
  obtain ⟨type, resolved, ⟨⟩⟩ := bind_eq_ok_iff.mp found
  refine ⟨sound.name, (settled_of_typeRef sound.type resolved).1, fun text given => ?_⟩
  obtain ⟨value, same, rfl⟩ := Option.map_eq_some_iff.mp given
  obtain ⟨again, spelled, readable, balanced⟩ := (sound.default value same).exists_spelled 2
  refine ⟨isConstant_of_spelled spelled (constant_eq readable), ?_⟩
  rw [sourceTokens_eq spelled]
  exact balanced (printable value same)

def Definitions.FieldDefinition.defaults (field : FieldDefinition) : List Value :=
  field.arguments.filterMap InputDefinition.default

theorem settled_of_field {definition : FieldDefinition} (sound : definition.Sound)
    (printable : ∀ value ∈ definition.defaults, ∀ number, value.Has number → number.Printable)
    {field : Field} (found : kinds.field definition = .ok field) : field.Settled kinds.Declares := by
  unfold Kinds.field at found
  obtain ⟨arguments, mapped, found⟩ := bind_eq_ok_iff.mp found
  obtain ⟨type, resolved, ⟨⟩⟩ := bind_eq_ok_iff.mp found
  refine ⟨sound.name, fun argument member => ?_, (settled_of_typeRef sound.type resolved).1⟩
  obtain ⟨input, inside, given⟩ := exists_left_of_forall₂ (mapM_eq_ok_iff.mp mapped) member
  exact settled_of_inputValue (sound.arguments input inside)
    (fun value same => printable value (List.mem_filterMap.mpr ⟨input, inside, same⟩)) given

theorem settled_of_fields {definitions : List FieldDefinition}
    (sound : ∀ definition ∈ definitions, definition.Sound)
    (printable : ∀ value ∈ definitions.flatMap FieldDefinition.defaults, ∀ number,
      value.Has number → number.Printable)
    {fields : List Field} (found : definitions.mapM kinds.field = .ok fields) :
    ∀ field ∈ fields, field.Settled kinds.Declares := by
  intro field member
  obtain ⟨definition, inside, given⟩ := exists_left_of_forall₂ (mapM_eq_ok_iff.mp found) member
  exact settled_of_field (sound definition inside)
    (fun value same => printable value (List.mem_flatMap.mpr ⟨definition, inside, same⟩)) given

theorem settled_of_leaves {names : List String} (legal : ∀ name ∈ names, isName name = true)
    {types : List TypeRef} (found : names.mapM kinds.leaf = .ok types) :
    ∀ type ∈ types, isName type.name = true ∧ kinds.Declares type.name := by
  intro type member
  obtain ⟨name, inside, given⟩ := exists_left_of_forall₂ (mapM_eq_ok_iff.mp found) member
  obtain ⟨kind, resolved, rfl⟩ := leaf_eq_ok_iff.mp given
  exact ⟨legal name inside, by simp [Kinds.Declares, resolved, TypeRef.name, TypeRef.name?]⟩

def Definitions.TypeContent.defaults : TypeContent → List Value
  | object _ fields | interface _ fields => fields.flatMap FieldDefinition.defaults
  | inputObject fields => fields.filterMap InputDefinition.default
  | scalar | union _ | enumeration _ => []

def Definitions.Definition.defaults : Definition → List Value
  | type definition => definition.content.defaults
  | objectExtension _ _ fields => fields.flatMap FieldDefinition.defaults
  | roots _ | inert => []

theorem settled_of_namedType {definition : TypeDefinition} (legal : isName definition.name = true)
    (sound : definition.content.Sound)
    (printable : ∀ value ∈ definition.content.defaults, ∀ number, value.Has number → number.Printable)
    {type : NamedType} (found : kinds.namedType definition = .ok type) :
    type.Settled kinds.Declares := by
  obtain ⟨name, description, content⟩ := definition
  -- A type without members is settled. Each kind adds the members that it may have.
  have bare (kind : TypeKind) (printed : kind ≠ .list ∧ kind ≠ .nonNull) :
      (NamedType.bare kind name description).Settled kinds.Declares :=
    ⟨legal, by simpa [NamedType.isDeclared, NamedType.bare] using printed, by simp [NamedType.bare],
      by simp [NamedType.bare], by simp [NamedType.bare], by simp [NamedType.bare],
      by simp [NamedType.bare]⟩
  unfold Kinds.namedType at found
  cases content with
  | scalar =>
    cases found
    exact bare .scalar (by decide)
  | object interfaces fields =>
    simp only [bind_eq_ok_iff] at found
    obtain ⟨fields, eachField, interfaces, eachInterface, ⟨⟩⟩ := found
    exact { bare .object (by decide) with
      fields := settled_of_fields sound.2 printable eachField
      interfaces := settled_of_leaves sound.1 eachInterface }
  | interface interfaces fields =>
    simp only [bind_eq_ok_iff] at found
    obtain ⟨fields, eachField, interfaces, eachInterface, ⟨⟩⟩ := found
    exact { bare .interface (by decide) with
      fields := settled_of_fields sound.2 printable eachField
      interfaces := settled_of_leaves sound.1 eachInterface }
  | union members =>
    simp only [bind_eq_ok_iff] at found
    obtain ⟨members, each, ⟨⟩⟩ := found
    exact { bare .union (by decide) with possibleTypes := settled_of_leaves sound each }
  | enumeration values =>
    cases found
    refine { bare .enumeration (by decide) with enumValues := fun value member => ?_ }
    obtain ⟨definition, inside, rfl⟩ := List.mem_map.mp member
    exact sound definition inside
  | inputObject fields =>
    simp only [bind_eq_ok_iff] at found
    obtain ⟨inputs, each, ⟨⟩⟩ := found
    refine { bare .inputObject (by decide) with inputFields := fun input member => ?_ }
    obtain ⟨definition, inside, given⟩ := exists_left_of_forall₂ (mapM_eq_ok_iff.mp each) member
    exact settled_of_inputValue (sound definition inside)
      (fun value same => printable value (List.mem_filterMap.mpr ⟨definition, inside, same⟩)) given

end Resolving

end TypedClient.GraphQl
