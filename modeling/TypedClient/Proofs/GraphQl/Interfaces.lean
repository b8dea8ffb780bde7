import TypedClient.GraphQl.ServiceClient
import TypedClient.Proofs.GraphQl.Leaves
import TypedClient.Proofs.Text.Identifiers
import TypedClient.Proofs.TypeScript.Mentions

/-! Which names in the interfaces of a client are interfaces of the client.

A member is mapped without regard to which types get an interface. What it mentions is an object type
of the schema nevertheless, so only types that are left out on purpose can be missing.
-/

set_option autoImplicit false

namespace TypedClient.GraphQl

open Definitions
open Text (capitalize)
open TypeScript (Declaration TypeExpr)

section First
variable {α : Type} {key : α → String} {items : List α}

theorem sameKey_trans (first second third : α) (same : (key first == key second) = true)
    (equal : (key second == key third) = true) : (key first == key third) = true := by
  rw [beq_iff_eq] at same equal ⊢
  exact same.trans equal

theorem firstOfEach_eq_leading (key : α → String) (items : List α) :
    firstOfEach key items = leading (fun first second => key first == key second) items :=
  foldl_keep_eq_leading sameKey_trans items

theorem firstOfEach_subset : firstOfEach key items ⊆ items := by
  rw [firstOfEach_eq_leading]
  exact (leading_sublist _ items).subset

theorem mem_keys_firstOfEach {name : String} :
    name ∈ (firstOfEach key items).map key ↔ name ∈ items.map key := by
  constructor
  · exact fun given => List.map_subset key firstOfEach_subset given
  · intro given
    obtain ⟨item, member, rfl⟩ := List.mem_map.mp given
    have known : (firstOfEach key items).any (key · == key item) = items.any (key · == key item) := by
      rw [firstOfEach_eq_leading]
      exact any_leading sameKey_trans items item
    rw [List.any_eq_true.mpr ⟨item, member, beq_self_eq_true (key item)⟩, List.any_eq_true] at known
    obtain ⟨first, kept, equal⟩ := known
    exact List.mem_map.mpr ⟨first, kept, beq_iff_eq.mp equal⟩

end First

section Mentions
variable {kinds : Kinds} {type : TypeRef} {mapped : TypeExpr} {name : String}

/-- Only object types are mentioned by name. -/
theorem mentioned_of_leafType {kind : TypeKind} {leaf : String} (found : leafType kind leaf = .ok mapped)
    (mentions : mapped.Mentions name) : kind = .object ∧ name = capitalize leaf := by
  cases kind with
  | object =>
    cases found
    exact ⟨rfl, mentions.of_reference⟩
  | scalar =>
    rw [leafType, scalarType] at found
    split_ifs at found <;> cases found <;> cases mentions
  | _ => cases found

theorem mentioned_of_typeRef {use : TypeUse} (resolved : kinds.typeRef use = .ok type)
    (found : type.type = .ok mapped) (mentions : mapped.Mentions name) :
    ∃ target, type.innermost = .leaf .object (some target) ∧ name = capitalize target := by
  induction use generalizing type mapped with
  | named target =>
    obtain ⟨kind, -, rfl⟩ := leaf_eq_ok_iff.mp resolved
    obtain ⟨rfl, named⟩ := mentioned_of_leafType found mentions
    exact ⟨target, rfl, named⟩
  | list item ih =>
    obtain ⟨inner, inside, rfl⟩ := map_eq_ok_iff.mp resolved
    obtain ⟨item, given, rfl⟩ := map_eq_ok_iff.mp found
    cases mentions with
    | item mentions => exact (ih inside given mentions :)
  | nonNull use ih =>
    obtain ⟨inner, inside, rfl⟩ := map_eq_ok_iff.mp resolved
    exact (ih inside found mentions :)

end Mentions

section Fields
variable {kinds : Kinds} {definitions : List Definition} {result : Progress}

def NamedType.Sourced (kinds : Kinds) (type : NamedType) : Prop :=
  ∀ field ∈ type.fields.getD [], ∃ use, kinds.typeRef use = .ok field.type

theorem exists_use_of_fields {definitions : List FieldDefinition} {fields : List Field}
    (mapped : definitions.mapM kinds.field = .ok fields) :
    ∀ field ∈ fields, ∃ use, kinds.typeRef use = .ok field.type := by
  intro field member
  obtain ⟨definition, -, found⟩ := exists_left_of_forall₂ (mapM_eq_ok_iff.mp mapped) member
  obtain ⟨_, -, found⟩ := bind_eq_ok_iff.mp found
  obtain ⟨type, resolved, ⟨⟩⟩ := bind_eq_ok_iff.mp found
  exact ⟨definition.type, resolved⟩

theorem sourced_of_namedType {definition : TypeDefinition} {type : NamedType}
    (found : kinds.namedType definition = .ok type) : type.Sourced kinds := by
  obtain ⟨name, description, content⟩ := definition
  unfold Kinds.namedType at found
  cases content with
  | scalar | enumeration _ =>
    cases found
    exact nofun
  | object interfaces fields | interface interfaces fields =>
    simp only [bind_eq_ok_iff] at found
    obtain ⟨fields, mapped, _, _, ⟨⟩⟩ := found
    exact exists_use_of_fields mapped
  | union _ | inputObject _ =>
    simp only [bind_eq_ok_iff] at found
    obtain ⟨_, _, ⟨⟩⟩ := found
    exact nofun

theorem Definitions.Added.sourced {progress next : Progress} {definition : Definition}
    (before : ∀ type ∈ progress.types, type.Sourced kinds) (added : Added kinds progress definition next) :
    ∀ type ∈ next.types, type.Sourced kinds := by
  cases added with
  | roots | inert => exact before
  | type found =>
    exact List.forall_mem_append.mpr ⟨before, List.forall_mem_singleton.mpr (sourced_of_namedType found)⟩
  | extension known eachField eachInterface =>
    intro type member
    rcases mem_changeFirst member with earlier | ⟨old, earlier, rfl⟩
    · exact before type earlier
    · exact List.forall_mem_append.mpr ⟨before old earlier, exists_use_of_fields eachField⟩

theorem sourced_of_run (run : definitions.foldlM (Progress.add kinds) Progress.start = .ok result) :
    ∀ type ∈ result.types, type.Sourced kinds :=
  run_induction (motive := fun _ progress => ∀ type ∈ progress.types, type.Sourced kinds) nofun
    (fun _ _ _ _ before added => added.sourced before) run

end Fields

section Declarations
variable {definitions : List Definition} {schema : Schema} {declarations : List Declaration} {name : String}

theorem declaration_eq_ok_iff {type : NamedType} {declaration : Declaration} :
    type.declaration = .ok declaration ↔
      ∃ fields, (firstOfEach Field.name (type.fields.getD [])).mapM Field.property = .ok fields ∧
        declaration = ⟨capitalize type.name, .interface fields⟩ := by
  unfold NamedType.declaration
  simp only [bind_eq_ok_iff]
  constructor
  · rintro ⟨fields, mapped, ⟨⟩⟩
    exact ⟨fields, mapped, rfl⟩
  · rintro ⟨fields, mapped, rfl⟩
    exact ⟨fields, mapped, rfl⟩

/-- What an interface mentions is an object type of the schema. -/
theorem exists_mentioned_type (described : schemaOf definitions = .ok schema) {type : NamedType}
    (member : type ∈ schema.types) {declaration : Declaration} (declared : type.declaration = .ok declaration)
    (mentions : declaration.Mentions name) :
    ∃ target ∈ schema.types, target.kind = .object ∧ capitalize target.name = name := by
  obtain ⟨progress, run, rfl⟩ := schemaOf_eq_ok_iff.mp described
  obtain ⟨fields, mapped, rfl⟩ := declaration_eq_ok_iff.mp declared
  cases mentions with
  | field inside mentions =>
    obtain ⟨field, listed, found⟩ := exists_left_of_forall₂ (mapM_eq_ok_iff.mp mapped) inside
    have given : field ∈ type.fields.getD [] := firstOfEach_subset listed
    obtain ⟨mapped, mapsTo, ⟨⟩⟩ := bind_eq_ok_iff.mp found
    have defined : type ∈ progress.types := by
      refine (List.mem_append.mp member).resolve_right fun implied => ?_
      rw [(mem_impliedScalars.mp implied).2] at given
      cases given
    obtain ⟨use, resolved⟩ := sourced_of_run run type defined field given
    obtain ⟨target, innermost, rfl⟩ := mentioned_of_typeRef resolved mapsTo mentions
    have leaf : field.type.innermost ∈ progress.types.flatMap NamedType.leaves :=
      List.mem_flatMap.mpr ⟨type, defined,
        List.mem_append_left _ (List.mem_flatMap.mpr ⟨field, given, List.mem_cons_self⟩)⟩
    obtain ⟨target, listed, same⟩ := exists_target run leaf
    rw [innermost] at same
    obtain ⟨object, named⟩ := TypeRef.leaf.inj same
    exact ⟨target, listed, object.symm, congrArg capitalize (Option.some.inj named).symm⟩

theorem names_of_declarations (declared : schema.declarations = .ok declarations) :
    declarations.map Declaration.name = schema.interfaceTypes.map fun type => capitalize type.name := by
  rw [← List.forall₂_eq_eq_eq, List.forall₂_map_left_iff, List.forall₂_map_right_iff]
  refine (mapM_eq_ok_iff.mp declared).flip.imp fun declaration type found => ?_
  obtain ⟨fields, -, rfl⟩ := declaration_eq_ok_iff.mp found
  rfl

/-- The interfaces are those of the object types that are not left out. -/
theorem mem_names_iff_exists (declared : schema.declarations = .ok declarations) :
    name ∈ declarations.map Declaration.name ↔ ∃ type ∈ schema.types, type.kind = .object ∧
      isOwnName type.name = false ∧ type.name ∉ skippedObjects ∧ capitalize type.name = name := by
  rw [names_of_declarations declared, Schema.interfaceTypes, mem_keys_firstOfEach, List.mem_map]
  simp only [Schema.userTypes, NamedType.hasInterface, List.mem_filter, Bool.and_eq_true, beq_iff_eq,
    Bool.not_eq_true', List.contains_eq_mem, decide_eq_false_iff_not]
  constructor
  · rintro ⟨type, ⟨⟨member, ordinary⟩, object, kept⟩, named⟩
    exact ⟨type, member, object, ordinary, kept, named⟩
  · rintro ⟨type, member, object, ordinary, kept, named⟩
    exact ⟨type, ⟨⟨member, ordinary⟩, object, kept⟩, named⟩

end Declarations

section Names
variable {definitions : List Definition} {schema : Schema} {name : String}

theorem isName_of_declared (sound : ∀ definition ∈ definitions, definition.Sound)
    (declared : name ∈ declaredNames definitions) : isName name = true := by
  obtain ⟨entry, listed, rfl⟩ := List.mem_map.mp declared
  obtain ⟨definition, member, found⟩ := List.mem_filterMap.mp listed
  cases definition with
  | type definition =>
    cases found
    exact (sound _ member).1
  | _ => cases found

theorem isName_of_schemaOf (sound : ∀ definition ∈ definitions, definition.Sound)
    (described : schemaOf definitions = .ok schema) : ∀ type ∈ schema.types, isName type.name = true := by
  obtain ⟨progress, run, rfl⟩ := schemaOf_eq_ok_iff.mp described
  refine List.forall_mem_append.mpr ⟨fun type member => ?_, fun type member => ?_⟩
  · exact isName_of_declared sound (names_of_run run ▸ List.mem_map_of_mem member)
  · have builtin := (mem_impliedScalars.mp member).1.1
    exact (by decide : ∀ name ∈ builtinScalars, isName name = true) type.name builtin

theorem isOwnName_iff : isOwnName name = true ↔ ∃ rest, name.toList = '_' :: '_' :: rest := by
  unfold isOwnName
  split
  case h_1 rest same => exact iff_of_true rfl ⟨rest, same⟩
  case h_2 other => exact iff_of_false nofun fun ⟨rest, same⟩ => other rest same

/-- Capitals do not make a name one of introspection, or keep it from being one. -/
theorem isOwnName_capitalize (legal : isName name = true) : isOwnName (capitalize name) = isOwnName name := by
  rw [Bool.eq_iff_iff, isOwnName_iff, isOwnName_iff, capitalize, String.toList_ofList]
  unfold isName at legal
  cases letters : name.toList with
  | nil =>
    rw [letters] at legal
    cases legal
  | cons c rest =>
    rw [letters, isNameList, Bool.and_eq_true] at legal
    have usable := identifierChar_of_nameChar (nameChar_of_start legal.1)
    rw [Text.capitalizeList_cons usable]
    simp only [List.cons.injEq, Text.toUpper_eq_underscore_iff usable]

theorem capitalize_skipped : ∀ name ∈ skippedObjects, capitalize name = name := by decide +kernel

end Names

section Clients
variable {schema : Schema} {settings : Settings} {artifact : Artifact} {text : String}

theorem generate_eq_ok (generated : ServiceClient.generate schema settings = .ok artifact) :
    ∃ declarations, schema.declarations = .ok declarations ∧ artifact.types = Page.render Style.standard
      (ServiceClient.typeSteps settings (ClientName.ofText settings.name) declarations) := by
  simp only [ServiceClient.generate] at generated
  split at generated
  case h_1 path _ =>
    rw [pure_bind] at generated
    obtain ⟨declarations, declared, ⟨⟩⟩ := bind_eq_ok_iff.mp generated
    exact ⟨declarations, declared, rfl⟩
  case h_2 => cases generated

/-- No name that begins with two underscores has an interface, and a name that is left out has one only
if it belongs to another object type as well, but for a capital. -/
def Schema.HasInterface (schema : Schema) (name : String) : Prop :=
  isOwnName name = false ∧ (name ∈ skippedObjects →
    ∃ type ∈ schema.types, type.kind = .object ∧ type.name ≠ name ∧ capitalize type.name = name)

theorem hasInterface_iff (legal : ∀ type ∈ schema.types, isName type.name = true) {target : NamedType}
    (targeted : target ∈ schema.types) (object : target.kind = .object) :
    schema.HasInterface (capitalize target.name) ↔ ∃ type ∈ schema.types, type.kind = .object ∧
      isOwnName type.name = false ∧ type.name ∉ skippedObjects ∧
        capitalize type.name = capitalize target.name := by
  constructor
  · rintro ⟨ordinary, other⟩
    rw [isOwnName_capitalize (legal target targeted)] at ordinary
    by_cases skipped : target.name ∈ skippedObjects
    · -- The names that are left out begin with a capital, so another type has the same but for that.
      rw [capitalize_skipped _ skipped] at other ⊢
      obtain ⟨other, member, object, different, named⟩ := other skipped
      refine ⟨other, member, object, ?_, fun kept => ?_, named⟩
      · rw [← isOwnName_capitalize (legal other member), named, ordinary]
      · exact different ((capitalize_skipped _ kept).symm.trans named)
    · exact ⟨target, targeted, object, ordinary, skipped, rfl⟩
  · rintro ⟨other, member, object, ordinary, kept, named⟩
    refine ⟨?_, fun skipped => ⟨other, member, object, ?_, named⟩⟩
    · rw [← named, isOwnName_capitalize (legal other member), ordinary]
    · rintro same
      exact kept (same ▸ skipped)

/-- A name in an interface is that of an interface, unless it belongs to introspection or to an object
type that is left out. -/
theorem mentioned_has_interface_iff (accepted : Schema.ofDefinitions text = .ok schema)
    (generated : ServiceClient.generate schema settings = .ok artifact) :
    ∃ declarations, schema.declarations = .ok declarations ∧
      artifact.types = Page.render Style.standard
        (ServiceClient.typeSteps settings (ClientName.ofText settings.name) declarations) ∧
      ∀ declaration ∈ declarations, (∃ fields, declaration.body = .interface fields) ∧
        ∀ name, declaration.Mentions name →
          (name ∈ declarations.map Declaration.name ↔ schema.HasInterface name) := by
  obtain ⟨definitions, read, described⟩ := ofDefinitions_eq_ok_iff.mp accepted
  have legal := isName_of_schemaOf (sound_of_read? read) described
  obtain ⟨declarations, declared, rendered⟩ := generate_eq_ok generated
  refine ⟨declarations, declared, rendered, fun declaration member => ?_⟩
  obtain ⟨type, listed, found⟩ := exists_left_of_forall₂ (mapM_eq_ok_iff.mp declared) member
  have present : type ∈ schema.types := List.mem_of_mem_filter (List.mem_of_mem_filter (firstOfEach_subset listed))
  constructor
  · obtain ⟨fields, -, rfl⟩ := declaration_eq_ok_iff.mp found
    exact ⟨fields, rfl⟩
  · intro name mentions
    obtain ⟨target, targeted, object, rfl⟩ := exists_mentioned_type described present found mentions
    exact (mem_names_iff_exists declared).trans (hasInterface_iff legal targeted object).symm

def ownerText : String := "type Query \x7b post: Post \x7d type Post \x7b owner: Query \x7d"

def ownerSchema : Schema where
  queryType := some "Query"
  mutationType := none
  subscriptionType := none
  types :=
    [{ NamedType.bare .object "Query" none with
        fields := some [⟨"post", none, [], .leaf .object (some "Post"), false, none⟩], interfaces := some [] },
      { NamedType.bare .object "Post" none with
        fields := some [⟨"owner", none, [], .leaf .object (some "Query"), false, none⟩], interfaces := some [] },
      .bare .scalar "String" none, .bare .scalar "Boolean" none]

def ownerDeclarations : List Declaration := [⟨"Post", .interface [⟨"owner", .reference "Query", true⟩]⟩]

theorem ownerText_accepted : Schema.ofDefinitions ownerText = .ok ownerSchema :=
  toOption_eq_some_iff.mp (by decide +kernel)

theorem ownerSchema_generates : ∃ artifact,
    ServiceClient.generate ownerSchema (Settings.standard "posts") = .ok artifact := by
  have checked : (ServiceClient.generate ownerSchema (Settings.standard "posts")).toOption.isSome = true := by
    decide +kernel
  obtain ⟨artifact, found⟩ := Option.isSome_iff_exists.mp checked
  exact ⟨artifact, toOption_eq_some_iff.mp found⟩

theorem ownerSchema_mentioned_has_interface_iff : ∃ artifact,
    Schema.ofDefinitions ownerText = .ok ownerSchema ∧
      ServiceClient.generate ownerSchema (Settings.standard "posts") = .ok artifact ∧
        ∃ declarations, ownerSchema.declarations = .ok declarations ∧
          ∀ declaration ∈ declarations, ∀ name, declaration.Mentions name →
            (name ∈ declarations.map Declaration.name ↔ ownerSchema.HasInterface name) := by
  obtain ⟨artifact, generated⟩ := ownerSchema_generates
  obtain ⟨declarations, declared, -, each⟩ := mentioned_has_interface_iff ownerText_accepted generated
  exact ⟨artifact, ownerText_accepted, generated, declarations, declared,
    fun declaration member => (each declaration member).2⟩

/-- The interface of `Post` mentions `Query`, which has none. -/
theorem ownerText_mentions_missing_interface : ¬ ∀ (text : String) (schema : Schema) (settings : Settings)
    (artifact : Artifact) (declarations : List Declaration), Schema.ofDefinitions text = .ok schema →
      ServiceClient.generate schema settings = .ok artifact → schema.declarations = .ok declarations →
        ∀ declaration ∈ declarations, ∀ name, declaration.Mentions name →
          name ∈ declarations.map Declaration.name := by
  intro always
  obtain ⟨artifact, generated⟩ := ownerSchema_generates
  have declared : ownerSchema.declarations = .ok ownerDeclarations := by rfl
  have mentions : Declaration.Mentions ⟨"Post", .interface [⟨"owner", .reference "Query", true⟩]⟩ "Query" :=
    .field List.mem_cons_self .reference
  have listed := always ownerText ownerSchema (Settings.standard "posts") artifact ownerDeclarations
    ownerText_accepted generated declared _ List.mem_cons_self "Query" mentions
  exact absurd listed (by decide)

end Clients

end TypedClient.GraphQl
