import TypedClient.Proofs.GraphQl.Nesting
import TypedClient.Proofs.GraphQl.Roots
import TypedClient.Proofs.GraphQl.ValueSources

/-! Plain schemas are read as they were printed. -/

set_option autoImplicit false

namespace TypedClient.GraphQl

open Definitions

section Plain
variable (known : TypeKind → String → Prop)

/-- A known type in at most `room` wrappers, none of them twice non-null. -/
inductive TypeRef.Plain : Nat → TypeRef → Prop where
  | leaf {room : Nat} {kind : TypeKind} {name : String} : known kind name →
      Plain room (.leaf kind (some name))
  | list {room : Nat} {inner : TypeRef} : Plain room inner → Plain (room + 1) (.wrapper .list none inner)
  | nonNull {room : Nat} {inner : TypeRef} : Plain room inner → inner.isForced = false →
      Plain (room + 1) (.wrapper .nonNull none inner)

def PlainDescription (description : Option String) : Prop :=
  ∀ text ∈ description, text ≠ "" ∧ '\n' ∉ text.toList

structure InputValue.Plain (input : InputValue) : Prop where
  name : isName input.name = true
  type : input.type.Plain known 40
  default : ∀ text ∈ input.default, ∃ value : Value,
    value.Sound PlainText (fun _ => False) 40 ∧ text = value.source

structure Field.Plain (field : Field) : Prop where
  name : isName field.name = true
  description : PlainDescription field.description
  arguments : ∀ argument ∈ field.arguments, argument.Plain known ∧ argument.description = none
  type : field.type.Plain known 40
  reason : field.reason.isSome = field.deprecated

structure EnumValue.Plain (value : EnumValue) : Prop where
  name : isName value.name = true
  description : PlainDescription value.description
  reason : value.reason.isSome = value.deprecated

inductive NamedType.PlainBody : NamedType → Prop where
  | scalar (name : String) (description : Option String) : PlainBody (.bare .scalar name description)
  | object (name : String) (description : Option String) {fields : List Field}
      {interfaces : List TypeRef} : fields ≠ [] → (∀ field ∈ fields, field.Plain known) →
      (∀ interface ∈ interfaces, interface.Plain known 0) →
      PlainBody { NamedType.bare .object name description with
        fields := some fields, interfaces := some interfaces }
  | interface (name : String) (description : Option String) {fields : List Field}
      {interfaces : List TypeRef} : fields ≠ [] → (∀ field ∈ fields, field.Plain known) →
      (∀ interface ∈ interfaces, interface.Plain known 0) →
      PlainBody { NamedType.bare .interface name description with
        fields := some fields, interfaces := some interfaces }
  | union (name : String) (description : Option String) {members : List TypeRef} : members ≠ [] →
      (∀ member ∈ members, member.Plain known 0) →
      PlainBody { NamedType.bare .union name description with possibleTypes := some members }
  | enumeration (name : String) (description : Option String) {values : List EnumValue} :
      values ≠ [] → (∀ value ∈ values, value.Plain) →
      PlainBody { NamedType.bare .enumeration name description with enumValues := some values }
  | inputObject (name : String) (description : Option String) {fields : List InputValue} :
      fields ≠ [] → (∀ field ∈ fields, field.Plain known ∧ PlainDescription field.description) →
      PlainBody { NamedType.bare .inputObject name description with inputFields := some fields }

structure NamedType.Plain (type : NamedType) : Prop where
  name : isName type.name = true
  description : PlainDescription type.description
  body : type.PlainBody known

def Schema.Knows (schema : Schema) (kind : TypeKind) (name : String) : Prop :=
  (∃ type ∈ schema.printedTypes, type.name = name ∧ type.kind = kind) ∨
    kind = .scalar ∧ name ∈ builtinScalars

instance (schema : Schema) (kind : TypeKind) (name : String) : Decidable (schema.Knows kind name) :=
  inferInstanceAs (Decidable (_ ∨ _))

/-- A schema of plain types with distinct names, none of which is built in. -/
structure Schema.Plain (schema : Schema) : Prop where
  types : ∀ type ∈ schema.printedTypes, type.Plain schema.Knows
  nonempty : schema.printedTypes ≠ []
  distinct : (schema.printedTypes.map NamedType.name).Nodup
  foreign : ∀ type ∈ schema.printedTypes, type.name ∉ builtinScalars
  roots : ∀ root ∈ schema.presentRoots, isName root.2 = true

end Plain

/-- Every description is read as it is. -/
def Meaning.faithful : Meaning := ⟨id, id⟩

section Printing
variable {known : TypeKind → String → Prop}

theorem described_of_plain {description : Option String} (plain : PlainDescription description)
    {depth : Nat} : ∀ text ∈ description, text ≠ "" →
      Prints depth (descriptionItems (some text)) [.text text] :=
  fun text given _ => prints_description_of_one_line (plain text given).1 (plain text given).2

variable (legal : ∀ kind name, known kind name → isName name = true)
include legal

theorem TypeRef.Plain.proper {room : Nat} {type : TypeRef} (plain : type.Plain known room) :
    type.Proper := by
  induction plain with
  | leaf isKnown => exact .leaf (legal _ _ isKnown)
  | list _ ih => exact .list ih
  | nonNull _ unforced ih => exact .nonNull ih unforced

theorem TypeRef.Plain.balanced {room : Nat} {type : TypeRef} (plain : type.Plain known room) :
    Balanced room type.tokens := by
  induction plain with
  | leaf isKnown => exact balanced_name (legal _ _ isKnown) .nil
  | list _ ih => exact .brackets rfl rfl rfl ih
  | nonNull _ _ ih => exact (ih.mono (Nat.le_succ _)).append (.mark rfl rfl .nil)

theorem TypeRef.Plain.legal_name {type : TypeRef} (plain : type.Plain known 0) :
    isName type.name = true := by
  cases plain with
  | leaf isKnown => exact legal _ _ isKnown

theorem InputValue.Plain.formed {input : InputValue} (plain : input.Plain known) : input.Formed := by
  refine ⟨plain.name, plain.type.proper legal, fun text given => ?_⟩
  obtain ⟨value, sound, rfl⟩ := plain.default text given
  obtain ⟨spelled, readable, -⟩ := sound.spelled 2
  exact isConstant_of_spelled spelled (constant_eq readable)

theorem InputValue.Plain.shallow {input : InputValue} (plain : input.Plain known) {room : Nat}
    (enough : 40 ≤ room) : input.Shallow room := by
  refine ⟨(plain.type.balanced legal).mono enough, fun text given => ?_⟩
  obtain ⟨value, sound, rfl⟩ := plain.default text given
  obtain ⟨spelled, -, balanced⟩ := sound.spelled 2
  rw [sourceTokens_eq spelled]
  exact balanced.mono enough

theorem Field.Plain.formed {field : Field} (plain : field.Plain known) :
    field.Formed Meaning.faithful.texts :=
  ⟨plain.name, described_of_plain plain.description,
    fun argument member => (plain.arguments argument member).1.formed legal, plain.type.proper legal⟩

theorem Field.Plain.shallow {field : Field} (plain : field.Plain known) : field.Shallow :=
  ⟨(plain.type.balanced legal).mono (by decide),
    fun argument member => (plain.arguments argument member).1.shallow legal (by decide)⟩

theorem NamedType.Plain.formed {type : NamedType} (plain : type.Plain known) :
    type.Formed Meaning.faithful.texts := by
  obtain ⟨name, description, body⟩ := plain
  refine ⟨name, described_of_plain description, ?_⟩
  cases body with
  | scalar => trivial
  | object _ _ _ fields interfaces =>
    exact ⟨fun interface member => (interfaces interface member).legal_name legal,
      fun field member => (fields field member).formed legal⟩
  | interface _ _ _ fields interfaces =>
    exact ⟨fun interface member => (interfaces interface member).legal_name legal,
      fun field member => (fields field member).formed legal⟩
  | union _ _ nonempty members =>
    exact ⟨nonempty, fun member inside => (members member inside).legal_name legal⟩
  | enumeration _ _ _ values =>
    exact fun value member =>
      ⟨(values value member).name, described_of_plain (values value member).description⟩
  | inputObject _ _ _ fields =>
    exact fun field member =>
      ⟨(fields field member).1.formed legal, described_of_plain (fields field member).2⟩

theorem NamedType.Plain.shallow {type : NamedType} (plain : type.Plain known) : type.Shallow := by
  obtain ⟨name, description, body⟩ := plain
  cases body with
  | object _ _ _ fields _ =>
    exact ⟨fun field member => (fields field member).shallow legal, by simp [bare]⟩
  | interface _ _ _ fields _ =>
    exact ⟨fun field member => (fields field member).shallow legal, by simp [bare]⟩
  | inputObject _ _ _ fields =>
    exact ⟨by simp [bare], fun field member => (fields field member).1.shallow legal (by decide)⟩
  | _ => exact ⟨by simp [bare], by simp [bare]⟩

end Printing

section Resolving
variable {known : TypeKind → String → Prop} {kinds : Kinds}

theorem deprecation?_outline {deprecated : Bool} {reason : Option String}
    (given : reason.isSome = deprecated) :
    deprecation? (deprecationOutline deprecated reason) = reason := by
  cases reason with
  | none =>
    subst given
    rfl
  | some text =>
    subst given
    unfold deprecationOutline
    by_cases standard : text = standardReason
    · simp [standard, deprecation?]
    · simp [standard, deprecation?, reasonText?]

theorem describedOutline_of_plain {description : Option String}
    (plain : PlainDescription description) : describedOutline id description = description := by
  cases description with
  | none => rfl
  | some text => simp [describedOutline, (plain text rfl).1]

theorem EnumValue.Plain.enumValue_outline {value : EnumValue} (plain : value.Plain) :
    Kinds.enumValue (value.outline Meaning.faithful) = value := by
  obtain ⟨-, description, reason⟩ := plain
  unfold Kinds.enumValue EnumValue.outline
  simp [deprecation?_outline reason, Meaning.faithful, describedOutline_of_plain description, reason]

variable (found : ∀ kind name, known kind name → kinds.lookup name = some kind)
include found

theorem leaf_of_known {kind : TypeKind} {name : String} (isKnown : known kind name) :
    kinds.leaf name = .ok (.leaf kind (some name)) := by
  rw [Kinds.leaf, found kind name isKnown]

theorem TypeRef.Plain.typeRef_use {room : Nat} {type : TypeRef} (plain : type.Plain known room) :
    kinds.typeRef type.use = .ok type := by
  induction plain with
  | leaf isKnown => exact leaf_of_known found isKnown
  | list _ ih =>
    rw [TypeRef.use, Kinds.typeRef, ih]
    rfl
  | nonNull _ _ ih =>
    rw [TypeRef.use, Kinds.typeRef, ih]
    rfl

theorem mapM_leaf {types : List TypeRef} (plain : ∀ type ∈ types, type.Plain known 0) :
    (types.map TypeRef.name).mapM kinds.leaf = .ok types := by
  refine mapM_map_of_inverse fun type member => ?_
  cases plain type member with
  | leaf isKnown => exact leaf_of_known found isKnown

theorem InputValue.Plain.inputValue_outline {input : InputValue} (plain : input.Plain known)
    {description : Option String} (same : description = input.description) :
    kinds.inputValue { input.outline with description := description } = .ok input := by
  have default : (input.default.map sourceValue).map Value.source = input.default := by
    cases given : input.default with
    | none => rfl
    | some text =>
      obtain ⟨value, sound, rfl⟩ := plain.default text given
      obtain ⟨spelled, readable, -⟩ := sound.spelled 2
      simp [sourceValue_eq spelled (constant_eq readable)]
  unfold Kinds.inputValue InputValue.outline
  simp only [plain.type.typeRef_use found, default, same]
  rfl

theorem Field.Plain.field_outline {field : Field} (plain : field.Plain known) :
    kinds.field (field.outline Meaning.faithful) = .ok field := by
  obtain ⟨-, description, arguments, type, reason⟩ := plain
  have inputs : (field.arguments.map InputValue.outline).mapM kinds.inputValue = .ok field.arguments :=
    mapM_map_of_inverse fun argument member =>
      (arguments argument member).1.inputValue_outline found (arguments argument member).2.symm
  unfold Kinds.field Field.outline
  simp only [inputs, type.typeRef_use found, deprecation?_outline reason, Meaning.faithful,
    describedOutline_of_plain description, reason]
  rfl

theorem mapM_field {fields : List Field} (plain : ∀ field ∈ fields, field.Plain known) :
    (fields.map (Field.outline Meaning.faithful)).mapM kinds.field = .ok fields :=
  mapM_map_of_inverse fun field member => (plain field member).field_outline found

/-- A plain type is the one that its outline describes. -/
theorem NamedType.Plain.namedType_outline {type : NamedType} (plain : type.Plain known) :
    ∃ outline, type.outline? Meaning.faithful = some outline ∧ kinds.namedType outline = .ok type := by
  obtain ⟨name, description, body⟩ := plain
  have same : describedOutline Meaning.faithful.typeText type.description = type.description :=
    describedOutline_of_plain description
  -- Descriptions come back unchanged; what is left are the members of each kind.
  cases body with
  | scalar =>
    refine ⟨_, rfl, ?_⟩
    simp only [same, Kinds.namedType]
    rfl
  | object _ _ _ fields interfaces =>
    refine ⟨_, rfl, ?_⟩
    simp only [same, Kinds.namedType, Option.getD_some, mapM_field found fields,
      mapM_leaf found interfaces]
    rfl
  | interface _ _ _ fields interfaces =>
    refine ⟨_, rfl, ?_⟩
    simp only [same, Kinds.namedType, Option.getD_some, mapM_field found fields,
      mapM_leaf found interfaces]
    rfl
  | union _ _ _ members =>
    refine ⟨_, rfl, ?_⟩
    simp only [same, Kinds.namedType, Option.getD_some, mapM_leaf found members]
    rfl
  | @enumeration _ _ values _ each =>
    have inverse : values.map (Kinds.enumValue ∘ EnumValue.outline Meaning.faithful) = values := by
      conv_rhs => rw [← List.map_id values]
      exact List.map_congr_left fun value member => (each value member).enumValue_outline
    refine ⟨_, rfl, ?_⟩
    simp only [same, Kinds.namedType, Option.getD_some, List.map_map, inverse]
    rfl
  | @inputObject _ _ inputs _ each =>
    have inverse : (inputs.map (InputValue.memberOutline Meaning.faithful)).mapM kinds.inputValue =
        .ok inputs := mapM_map_of_inverse fun input member =>
      (each input member).1.inputValue_outline found (describedOutline_of_plain (each input member).2)
    refine ⟨_, rfl, ?_⟩
    simp only [same, Kinds.namedType, Option.getD_some, inverse]
    rfl

end Resolving

section RoundTrip
variable {schema : Schema}

theorem NamedType.of_outline? {meaning : Meaning} {type : NamedType} {outline : TypeDefinition}
    (given : type.outline? meaning = some outline) :
    outline.name = type.name ∧ outline.content.kind = type.kind := by
  obtain ⟨content, known, rfl⟩ := Option.map_eq_some_iff.mp given
  refine ⟨rfl, ?_⟩
  unfold content? at known
  cases kind : type.kind <;> rw [kind] at known <;> cases known <;> rfl

theorem NamedType.Plain.isFilled {known : TypeKind → String → Prop} {type : NamedType}
    (plain : type.Plain known) : type.isFilled = true := by
  obtain ⟨-, -, body⟩ := plain
  cases body with
  | scalar => rfl
  | union => rfl
  | object _ _ nonempty => simpa [NamedType.isFilled, bare] using nonempty
  | interface _ _ nonempty => simpa [NamedType.isFilled, bare] using nonempty
  | enumeration _ _ nonempty => simpa [NamedType.isFilled, bare] using nonempty
  | inputObject _ _ nonempty => simpa [NamedType.isFilled, bare] using nonempty

theorem NamedType.Plain.isDeclared {known : TypeKind → String → Prop} {type : NamedType}
    (plain : type.Plain known) : type.isDeclared = true := by
  obtain ⟨-, -, body⟩ := plain
  cases body <;> rfl

theorem Schema.Plain.legal (plain : schema.Plain) {kind : TypeKind} {name : String}
    (known : schema.Knows kind name) : isName name = true := by
  rcases known with ⟨type, member, rfl, -⟩ | ⟨-, builtin⟩
  · exact (plain.types type member).name
  · exact (by decide : ∀ name ∈ builtinScalars, isName name = true) name builtin

theorem Schema.Plain.formed (plain : schema.Plain) : schema.Formed Meaning.faithful.texts :=
  ⟨plain.roots, fun type member => (plain.types type member).formed fun _ _ => plain.legal⟩

theorem Schema.Plain.declaredTypes (plain : schema.Plain) : schema.declaredTypes = schema.printedTypes :=
  List.filter_eq_self.mpr fun type member => (plain.types type member).isDeclared

/-- Every name that a plain schema knows is resolved to its kind. -/
theorem Schema.Plain.lookup_of_knows (plain : schema.Plain) {kind : TypeKind} {name : String}
    (known : schema.Knows kind name) :
    (kindsOf ((schema.typeOutlines Meaning.faithful).map .type)).lookup name = some kind := by
  have names := @names_typeOutlines schema Meaning.faithful
  rw [plain.declaredTypes] at names
  have foreign : ∀ outline ∈ schema.typeOutlines Meaning.faithful, outline.name ∉ builtinScalars := by
    intro outline member
    obtain ⟨type, printed, given⟩ := List.mem_filterMap.mp member
    rw [(NamedType.of_outline? given).1]
    exact plain.foreign type printed
  obtain ⟨defined, builtin⟩ := lookup_kindsOf (names ▸ plain.distinct) foreign
  rcases known with ⟨type, member, rfl, rfl⟩ | ⟨rfl, listed⟩
  · cases given : type.outline? Meaning.faithful with
    | none =>
      have same := type.outline?_eq Meaning.faithful
      rw [given, (plain.types type member).isDeclared] at same
      cases same
    | some outline =>
      obtain ⟨sameName, sameKind⟩ := NamedType.of_outline? given
      rw [← sameName, ← sameKind]
      exact defined outline (List.mem_filterMap.mpr ⟨type, member, given⟩)
  · exact builtin name listed

theorem Schema.Plain.read? (plain : schema.Plain) :
    read? schema.definitions = some (schema.outline Meaning.faithful) := by
  have shallow : ∀ type ∈ schema.printedTypes, type.Shallow :=
    fun type member => (plain.types type member).shallow fun _ _ => plain.legal
  have filled : schema.printedTypes.all NamedType.isFilled = true :=
    List.all_eq_true.mpr fun type member => (plain.types type member).isFilled
  have nonempty : schema.tokens Meaning.faithful ≠ [] := by
    obtain ⟨type, types, given⟩ := List.exists_cons_of_ne_nil plain.nonempty
    obtain ⟨outline, declared, -⟩ := (plain.types type (given ▸ List.mem_cons_self)).namedType_outline
      fun _ _ => plain.lookup_of_knows
    rw [Schema.tokens, given, List.flatMap_cons]
    exact List.append_ne_nil_of_right_ne_nil _
      (List.append_ne_nil_of_left_ne_nil (NamedType.begins_tokens declared).ne_nil _)
  rw [read?_definitions plain.formed, if_pos ⟨fits_tokens plain.formed shallow, nonempty, filled⟩]

/-- A plain schema that is printed and read again has the same types, followed by the built-in scalars
that they imply, and its roots survive unless they are absent or undeclared. -/
theorem ofDefinitions_definitions (plain : schema.Plain) :
    ∃ again, Schema.ofDefinitions schema.definitions = .ok again ∧
      again.types = schema.printedTypes ++ impliedScalars schema.printedTypes ∧
      (again.roots = schema.roots.map fun (operation, root, usual) =>
        (operation, schema.rootAgain root usual, usual)) ∧
      (again.roots = schema.roots ↔
        ∀ operation root usual, (operation, root, usual) ∈ schema.roots → schema.Keeps root usual) := by
  have types : (schema.typeOutlines Meaning.faithful).mapM
      (kindsOf ((schema.typeOutlines Meaning.faithful).map .type)).namedType = .ok schema.printedTypes :=
    mapM_filterMap_of_inverse fun type member =>
      (plain.types type member).namedType_outline fun _ _ => plain.lookup_of_knows
  refine ⟨resolved (if schema.hasUnusualRoot then schema.rootNames else RootNames.none)
    schema.printedTypes, ?_, rfl, roots_resolved (by rw [plain.declaredTypes]) rfl⟩
  unfold Schema.ofDefinitions
  rw [plain.read?]
  exact schemaOf_outline.mpr ⟨_, types, rfl⟩

def posts : Schema where
  queryType := some "Root"
  mutationType := none
  subscriptionType := none
  types := [
    { NamedType.bare .object "Root" (some "Where \"queries\" begin") with
      fields := some [⟨"posts", none,
        [⟨"order", none, .leaf .enumeration (some "Order"), some "NEWEST"⟩,
          ⟨"limits", none, .wrapper .list none (.wrapper .nonNull none (.leaf .scalar (some "Int"))),
            some "[1, -2]"⟩],
        .wrapper .list none (.leaf .union (some "Entry")), true, some "Slow"⟩]
      interfaces := some [] },
    { NamedType.bare .enumeration "Order" none with
      enumValues := some [⟨"NEWEST", some "The default", false, none⟩] },
    { NamedType.bare .union "Entry" none with possibleTypes := some [.leaf .object (some "Root")] }]

theorem posts_plain : posts.Plain := by
  have printed : posts.printedTypes = posts.types := by decide
  have limits : "[1, -2]" = (Value.list [.integer 1, .integer (-2)]).source := by decide
  refine ⟨?_, by decide, by decide, by decide, by decide⟩
  rw [printed]
  refine List.forall_mem_cons.mpr ⟨?_, List.forall_mem_cons.mpr ⟨?_, List.forall_mem_singleton.mpr ?_⟩⟩
  · refine ⟨by decide, by simp [PlainDescription, NamedType.bare], .object _ _ (by simp) ?_ (by simp)⟩
    refine List.forall_mem_singleton.mpr ⟨by decide, by simp [PlainDescription], ?_,
      .list (.leaf (by decide)), rfl⟩
    refine List.forall_mem_cons.mpr ⟨⟨⟨by decide, .leaf (by decide), ?_⟩, rfl⟩,
      List.forall_mem_singleton.mpr ⟨⟨by decide, .list (.nonNull (.leaf (by decide)) rfl), ?_⟩, rfl⟩⟩
    · rintro _ ⟨⟩
      exact ⟨.symbol "NEWEST", .symbol (by decide) (by simp [symbolValue]), by decide⟩
    · rintro _ ⟨⟩
      refine ⟨_, .list ?_, limits⟩
      simp only [List.forall_mem_cons]
      exact ⟨.integer (by decide) (by decide), .integer (by decide) (by decide), by simp⟩
  · refine ⟨by decide, by simp [PlainDescription, NamedType.bare], .enumeration _ _ (by simp) ?_⟩
    exact List.forall_mem_singleton.mpr ⟨by decide, by simp [PlainDescription], rfl⟩
  · refine ⟨by decide, by simp [PlainDescription, NamedType.bare], .union _ _ (by simp) ?_⟩
    exact List.forall_mem_singleton.mpr (.leaf (by decide))

theorem posts_again : ∃ again, Schema.ofDefinitions posts.definitions = .ok again ∧
    again.types = posts.types ++ ["String", "Int", "Boolean"].map (NamedType.bare .scalar · none) ∧
    again.roots = posts.roots := by
  obtain ⟨again, accepted, types, -, roots⟩ := ofDefinitions_definitions posts_plain
  refine ⟨again, accepted, ?_, roots.mpr ?_⟩
  · rw [types]
    decide
  · have root : posts.Keeps (some "Root") "Query" := .inl (by decide)
    have noMutation : posts.Keeps none "Mutation" := by
      unfold Schema.Keeps
      decide
    have noSubscription : posts.Keeps none "Subscription" := by
      unfold Schema.Keeps
      decide
    simp only [Schema.roots, List.mem_cons, Prod.mk.injEq, List.not_mem_nil, or_false]
    rintro operation name usual (⟨-, rfl, rfl⟩ | ⟨-, rfl, rfl⟩ | ⟨-, rfl, rfl⟩)
    · exact root
    · exact noMutation
    · exact noSubscription

end RoundTrip

end TypedClient.GraphQl
