import TypedClient.Proofs.GraphQl.DefinitionOrder

/-! Object types that are split into extensions.

Fields and interfaces of an object type may move into blocks that extend it. A type has its members in the
order of the document, so a block changes this order only if it stands behind another one that was there
already and gives members of the same sort.
-/

set_option autoImplicit false

namespace TypedClient.GraphQl.Definitions

abbrev Block := List String × List FieldDefinition

def Block.definition (name : String) (block : Block) : Definition := .objectExtension name block.1 block.2

theorem extensionOf?_block (name : String) (block : Block) :
    (block.definition name).extensionOf? name = some block := extensionOf?_same

section Members
variable {kinds : Kinds} {definitions : List Definition} {extensions : List Block} {result type : NamedType}

theorem extensions_eq_ok_iff {fields : List Field} {interfaces : List TypeRef}
    (given : type.fields = some fields) (implemented : type.interfaces = some interfaces) :
    extensions.foldlM kinds.extend type = .ok result ↔ ∃ moreFields moreInterfaces,
      (extensions.flatMap Prod.snd).mapM kinds.field = .ok moreFields ∧
      (extensions.flatMap Prod.fst).mapM kinds.leaf = .ok moreInterfaces ∧
      result = { type with
        fields := some (fields ++ moreFields)
        interfaces := some (interfaces ++ moreInterfaces) } := by
  induction extensions generalizing type fields interfaces with
  | nil =>
    have same : type = { type with fields := some (fields ++ []), interfaces := some (interfaces ++ []) } := by
      rw [List.append_nil, List.append_nil, ← given, ← implemented]
    constructor
    · rintro ⟨⟩
      exact ⟨[], [], rfl, rfl, same⟩
    · rintro ⟨_, _, ⟨⟩, ⟨⟩, rfl⟩
      exact congrArg Except.ok same
  | cons extension extensions ih =>
    -- The type that the first extension leaves has members again.
    have next (moreFields : List Field) (moreInterfaces : List TypeRef) := @ih
      (extended moreFields moreInterfaces type) (fields ++ moreFields) (interfaces ++ moreInterfaces)
      (by rw [extended, given]; rfl) (by rw [extended, implemented]; rfl)
    rw [List.foldlM_cons, List.flatMap_cons, List.flatMap_cons, List.mapM_append, List.mapM_append]
    simp only [Kinds.extend, bind_eq_ok_iff]
    constructor
    · rintro ⟨_, ⟨eachField, mapped, eachInterface, found, ⟨⟩⟩, rest⟩
      obtain ⟨moreFields, moreInterfaces, others, leaves, rfl⟩ := (next _ _).mp rest
      exact ⟨_, _, ⟨_, mapped, _, others, rfl⟩, ⟨_, found, _, leaves, rfl⟩,
        by rw [← List.append_assoc, ← List.append_assoc]; rfl⟩
    · rintro ⟨_, _, ⟨_, mapped, _, others, ⟨⟩⟩, ⟨_, found, _, leaves, ⟨⟩⟩, rfl⟩
      exact ⟨_, ⟨_, mapped, _, found, rfl⟩,
        (next _ _).mpr ⟨_, _, others, leaves, by rw [← List.append_assoc, ← List.append_assoc]; rfl⟩⟩

/-- An object type has the members of its definition, and behind them those of its extensions. -/
theorem completed_object_eq_ok_iff {name : String} {description : Option String} {interfaces : List String}
    {fields : List FieldDefinition} :
    kinds.completed definitions ⟨name, description, .object interfaces fields⟩ = .ok result ↔
      ∃ allFields allInterfaces,
        (fields ++ (definitions.filterMap (Definition.extensionOf? name)).flatMap Prod.snd).mapM kinds.field =
          .ok allFields ∧
        (interfaces ++ (definitions.filterMap (Definition.extensionOf? name)).flatMap Prod.fst).mapM
          kinds.leaf = .ok allInterfaces ∧
        result = { NamedType.bare .object name description with
          fields := some allFields
          interfaces := some allInterfaces } := by
  rw [List.mapM_append, List.mapM_append]
  simp only [Kinds.completed, Kinds.namedType, bind_eq_ok_iff]
  constructor
  · rintro ⟨_, ⟨fields, mapped, interfaces, found, ⟨⟩⟩, rest⟩
    obtain ⟨_, _, others, leaves, rfl⟩ := (extensions_eq_ok_iff rfl rfl).mp rest
    exact ⟨_, _, ⟨_, mapped, _, others, rfl⟩, ⟨_, found, _, leaves, rfl⟩, rfl⟩
  · rintro ⟨_, _, ⟨_, mapped, _, others, ⟨⟩⟩, ⟨_, found, _, leaves, ⟨⟩⟩, rfl⟩
    exact ⟨_, ⟨_, mapped, _, found, rfl⟩, (extensions_eq_ok_iff rfl rfl).mpr ⟨_, _, others, leaves, rfl⟩⟩

end Members

section Placement
variable {name : String} {passes : Definition → Block → Prop} {blocks : List Block}
  {after mixed : List Definition}

/-- Blocks that extend a type of the name are placed between definitions. A block that stands behind a
definition must be allowed to pass it. -/
inductive Placed (name : String) (passes : Definition → Block → Prop) :
    List Block → List Definition → List Definition → Prop where
  | nil : Placed name passes [] [] []
  | place {block : Block} {blocks : List Block} {after mixed : List Definition} :
      Placed name passes blocks after mixed →
      Placed name passes (block :: blocks) after (block.definition name :: mixed)
  -- All blocks that are still to be placed come behind the definition.
  | keep {definition : Definition} {blocks : List Block} {after mixed : List Definition} :
      (∀ block ∈ blocks, passes definition block) → Placed name passes blocks after mixed →
      Placed name passes blocks (definition :: after) (definition :: mixed)

/-- No members of the block come behind such members of an extension of the name. -/
def Exchangeable (name : String) (definition : Definition) (block : Block) : Prop :=
  ∀ own ∈ definition.extensionOf? name, (own.1 = [] ∨ block.1 = []) ∧ (own.2 = [] ∨ block.2 = [])

theorem Placed.filterMap_eq {β : Type} {f : Definition → Option β}
    (placed : Placed name passes blocks after mixed)
    (none : ∀ block : Block, f (block.definition name) = none) :
    mixed.filterMap f = after.filterMap f := by
  induction placed with
  | nil => rfl
  | place _ ih => rw [List.filterMap_cons_none (none _), ih]
  | @keep definition _ _ _ _ _ ih => rw [List.filterMap_cons, List.filterMap_cons, ih]

/-- The extensions of the name are the blocks and those that were there, in some order. -/
theorem Placed.extensions_perm (placed : Placed name passes blocks after mixed) :
    (mixed.filterMap (Definition.extensionOf? name)).Perm
      (blocks ++ after.filterMap (Definition.extensionOf? name)) := by
  induction placed with
  | nil => exact .nil
  | @place block _ _ _ _ ih =>
    rw [List.filterMap_cons_some (extensionOf?_block name block)]
    exact ih.cons block
  | @keep definition _ _ _ _ _ ih =>
    cases own : definition.extensionOf? name with
    | none => rwa [List.filterMap_cons_none own, List.filterMap_cons_none own]
    | some own' =>
      rw [List.filterMap_cons_some own, List.filterMap_cons_some own]
      exact (ih.cons own').trans List.perm_middle.symm

/-- What cannot be told apart by its place, since one of both is empty. -/
theorem append_flatMap_comm {α : Type} {part : Block → List α} {own : Block}
    (apart : ∀ block ∈ blocks, part own = [] ∨ part block = []) (rest : List α) :
    part own ++ (blocks.flatMap part ++ rest) = blocks.flatMap part ++ (part own ++ rest) := by
  by_cases empty : part own = []
  · rw [empty, List.nil_append, List.nil_append]
  · have none : blocks.flatMap part = [] :=
      List.flatMap_eq_nil_iff.mpr fun block listed => (apart block listed).resolve_left empty
    rw [none, List.nil_append, List.nil_append]

/-- If the blocks may pass what they stand behind, the members are in the order of the blocks, and behind
them are those of the extensions that were there. -/
theorem Placed.flatMap_extensions (placed : Placed name (Exchangeable name) blocks after mixed) :
    (mixed.filterMap (Definition.extensionOf? name)).flatMap Prod.fst =
        blocks.flatMap Prod.fst ++ (after.filterMap (Definition.extensionOf? name)).flatMap Prod.fst ∧
      (mixed.filterMap (Definition.extensionOf? name)).flatMap Prod.snd =
        blocks.flatMap Prod.snd ++ (after.filterMap (Definition.extensionOf? name)).flatMap Prod.snd := by
  induction placed with
  | nil => exact ⟨rfl, rfl⟩
  | @place block _ _ _ _ ih =>
    rw [List.filterMap_cons_some (extensionOf?_block name block)]
    simp only [List.flatMap_cons, ih, List.append_assoc, and_self]
  | @keep definition _ _ _ pass _ ih =>
    cases own : definition.extensionOf? name with
    | none => rwa [List.filterMap_cons_none own, List.filterMap_cons_none own]
    | some own' =>
      rw [List.filterMap_cons_some own, List.filterMap_cons_some own]
      simp only [List.flatMap_cons, ih]
      exact ⟨append_flatMap_comm (fun block listed => (pass block listed own' own).1) _,
        append_flatMap_comm (fun block listed => (pass block listed own' own).2) _⟩

theorem Placed.mem (placed : Placed name passes blocks after mixed) {definition : Definition}
    (member : definition ∈ mixed) :
    definition ∈ after ∨ ∃ block ∈ blocks, definition = block.definition name := by
  induction placed with
  | nil => cases member
  | place _ ih =>
    rcases List.mem_cons.mp member with rfl | member
    · exact .inr ⟨_, List.mem_cons_self, rfl⟩
    · exact (ih member).imp_right fun ⟨block, listed, same⟩ => ⟨block, .tail _ listed, same⟩
  | keep _ _ ih =>
    rcases List.mem_cons.mp member with rfl | member
    · exact .inl List.mem_cons_self
    · exact (ih member).imp_left fun listed => .tail _ listed

/-- An extension of another type stands behind the same types as without the blocks. -/
theorem Placed.exists_before (placed : Placed name passes blocks after mixed) {other : String}
    {interfaces : List String} {fields : List FieldDefinition} {before behind : List Definition}
    (different : other ≠ name) (stands : mixed = before ++ .objectExtension other interfaces fields :: behind) :
    ∃ front back, after = front ++ .objectExtension other interfaces fields :: back ∧
      declaredNames front = declaredNames before := by
  induction placed generalizing before with
  | nil => simp at stands
  | place _ ih =>
    cases before with
    | nil =>
      cases stands
      exact absurd rfl different
    | cons first before =>
      obtain ⟨rfl, rest⟩ := List.cons.inj stands
      obtain ⟨front, back, same, names⟩ := ih rest
      exact ⟨front, back, same, names⟩
  | @keep definition _ _ _ _ _ ih =>
    cases before with
    | nil =>
      obtain ⟨rfl, rest⟩ := List.cons.inj stands
      exact ⟨[], _, rfl, rfl⟩
    | cons first before =>
      obtain ⟨rfl, rest⟩ := List.cons.inj stands
      obtain ⟨front, back, rfl, names⟩ := ih rest
      refine ⟨definition :: front, back, rfl, ?_⟩
      rw [← List.singleton_append, declaredNames_append, names, ← declaredNames_append]
      rfl

end Placement

/-- An object type among definitions, with the members that it keeps and those that go into blocks. -/
structure Cut where
  before : List Definition
  name : String
  description : Option String
  interfaces : List String
  fields : List FieldDefinition
  blocks : List Block
  after : List Definition

namespace Cut

def definition (cut : Cut) : TypeDefinition :=
  ⟨cut.name, cut.description, .object (cut.interfaces ++ cut.blocks.flatMap Prod.fst)
    (cut.fields ++ cut.blocks.flatMap Prod.snd)⟩

def kept (cut : Cut) : TypeDefinition := ⟨cut.name, cut.description, .object cut.interfaces cut.fields⟩

def whole (cut : Cut) : List Definition := cut.before ++ .type cut.definition :: cut.after

/-- The definitions after it is split, with the blocks among those that stood behind it. -/
def split (cut : Cut) (mixed : List Definition) : List Definition := cut.before ++ .type cut.kept :: mixed

end Cut

section Splitting
variable {cut : Cut} {passes : Definition → Block → Prop} {mixed : List Definition}

theorem Placed.kindEntries (placed : Placed cut.name passes cut.blocks cut.after mixed) :
    (cut.split mixed).filterMap Definition.kindEntry? = cut.whole.filterMap Definition.kindEntry? := by
  have others := placed.filterMap_eq (f := Definition.kindEntry?) fun _ => rfl
  rw [Cut.split, Cut.whole, List.filterMap_append, List.filterMap_append, List.filterMap_cons,
    List.filterMap_cons, others]
  rfl

theorem Placed.names_eq (placed : Placed cut.name passes cut.blocks cut.after mixed) :
    declaredNames (cut.split mixed) = declaredNames cut.whole := by
  rw [declaredNames, declaredNames, placed.kindEntries]

theorem Placed.kindsOf_eq (placed : Placed cut.name passes cut.blocks cut.after mixed) :
    kindsOf (cut.split mixed) = kindsOf cut.whole := by
  rw [kindsOf, kindsOf, placed.kindEntries]

theorem Placed.roots_eq (placed : Placed cut.name passes cut.blocks cut.after mixed) :
    (cut.split mixed).filterMap Definition.roots? = cut.whole.filterMap Definition.roots? := by
  have others := placed.filterMap_eq (f := Definition.roots?) fun _ => rfl
  rw [Cut.split, Cut.whole, List.filterMap_append, List.filterMap_append, List.filterMap_cons,
    List.filterMap_cons, others]
  rfl

/-- Other types have the extensions that they had. -/
theorem Placed.extensions_other (placed : Placed cut.name passes cut.blocks cut.after mixed) {name : String}
    (different : cut.name ≠ name) : (cut.split mixed).filterMap (Definition.extensionOf? name) =
      cut.whole.filterMap (Definition.extensionOf? name) := by
  have others := placed.filterMap_eq (f := Definition.extensionOf? name) fun _ => extensionOf?_other different
  rw [Cut.split, Cut.whole, List.filterMap_append, List.filterMap_append, List.filterMap_cons,
    List.filterMap_cons, others]
  rfl

/-- No name is used that was not used before. -/
theorem Placed.exists_user (placed : Placed cut.name passes cut.blocks cut.after mixed)
    {definition : Definition} (member : definition ∈ cut.split mixed) {name : String}
    (used : name ∈ definition.usedNames) : ∃ user ∈ cut.whole, name ∈ user.usedNames := by
  -- What the type keeps, and what goes into a block, was all used by the type.
  have ofType (fields : List FieldDefinition) (interfaces : List String)
      (someFields : fields ⊆ cut.fields ++ cut.blocks.flatMap Prod.snd)
      (someInterfaces : interfaces ⊆ cut.interfaces ++ cut.blocks.flatMap Prod.fst)
      (inside : name ∈ fields.flatMap FieldDefinition.leafNames ++ interfaces) :
      ∃ user ∈ cut.whole, name ∈ user.usedNames := by
    refine ⟨.type cut.definition, List.mem_append_right _ List.mem_cons_self, ?_⟩
    rcases List.mem_append.mp inside with leaf | implemented
    · obtain ⟨field, listed, uses⟩ := List.mem_flatMap.mp leaf
      exact List.mem_append_left _ (List.mem_flatMap.mpr ⟨field, someFields listed, uses⟩)
    · exact List.mem_append_right _ (someInterfaces implemented)
  rcases List.mem_append.mp member with earlier | member
  · exact ⟨definition, List.mem_append_left _ earlier, used⟩
  rcases List.mem_cons.mp member with rfl | later
  · exact ofType cut.fields cut.interfaces (List.subset_append_left _ _) (List.subset_append_left _ _) used
  rcases placed.mem later with there | ⟨block, listed, rfl⟩
  · exact ⟨definition, List.mem_append_right _ (.tail _ there), used⟩
  · refine ofType block.2 block.1 ?_ ?_ used
    · exact fun field inside => List.mem_append_right _ (List.mem_flatMap.mpr ⟨block, listed, inside⟩)
    · exact fun other inside => List.mem_append_right _ (List.mem_flatMap.mpr ⟨block, listed, inside⟩)

theorem InOrder.of_append {first second : List Definition} (order : InOrder (first ++ second)) :
    InOrder first := by
  rintro before name interfaces fields behind rfl
  exact order before name interfaces fields (behind ++ second) (by simp)

theorem Placed.inOrder (placed : Placed cut.name passes cut.blocks cut.after mixed)
    (order : InOrder cut.whole) : InOrder (cut.split mixed) := by
  intro before name interfaces fields behind same
  -- The extension stands behind the type that is split, or in front of it; it is not the type.
  rcases List.append_eq_append_iff.mp same with ⟨front, rfl, rest⟩ | ⟨front, earlier, rest⟩
  · rcases List.cons_eq_append_iff.mp rest with ⟨rfl, none⟩ | ⟨front, rfl, rest⟩
    · cases none
    · have names : declaredNames (cut.before ++ .type cut.kept :: front) =
          declaredNames cut.before ++ cut.name :: declaredNames front := by
        rw [declaredNames_append]
        rfl
      rw [names]
      by_cases own : name = cut.name
      · subst own
        exact List.mem_append_right _ List.mem_cons_self
      · obtain ⟨others, back, after, equal⟩ := placed.exists_before own (List.cons.inj rest).2
        have stands := order (cut.before ++ .type cut.definition :: others) name interfaces fields back
          (by rw [Cut.whole, after, List.append_assoc]; rfl)
        rw [declaredNames_append] at stands
        rw [← equal]
        exact stands
  · rcases List.cons_eq_append_iff.mp rest with ⟨rfl, none⟩ | ⟨front, rfl, rest⟩
    · cases none
    · exact order before name interfaces fields (front ++ .type cut.definition :: cut.after)
        (by rw [Cut.whole, earlier, List.append_assoc]; rfl)

end Splitting

section Types
variable {cut : Cut} {passes : Definition → Block → Prop} {mixed : List Definition} {kinds : Kinds}
  {types more : List NamedType} {type other : NamedType}

structure SameButMembers (type other : NamedType) : Prop where
  rest : { type with fields := none, interfaces := none } = { other with fields := none, interfaces := none }
  fields : Option.Rel List.Perm type.fields other.fields
  interfaces : Option.Rel List.Perm type.interfaces other.interfaces

theorem perm_getD_of_rel {α : Type} {items others : Option (List α)}
    (permuted : Option.Rel List.Perm items others) : (items.getD []).Perm (others.getD []) := by
  cases permuted with
  | some permuted => exact permuted
  | none => exact .refl []

theorem SameButMembers.leafNames_perm (same : SameButMembers type other) :
    (NamedType.leafNames type).Perm (NamedType.leafNames other) := by
  have inputs : type.inputFields = other.inputFields := (congrArg NamedType.inputFields same.rest :)
  unfold NamedType.leafNames
  rw [inputs]
  exact ((perm_getD_of_rel same.fields).flatMap_right _).append_right _

/-- Only the type that is split can be another one. -/
theorem Placed.types_split (placed : Placed cut.name passes cut.blocks cut.after mixed)
    (distinct : (declaredNames cut.whole).Nodup)
    (given : (cut.whole.filterMap Definition.type?).mapM (kinds.completed cut.whole) = .ok types)
    (again : ((cut.split mixed).filterMap Definition.type?).mapM (kinds.completed (cut.split mixed)) =
      .ok more) : ∃ front type other back, types = front ++ type :: back ∧ more = front ++ other :: back ∧
      kinds.completed cut.whole cut.definition = .ok type ∧
      kinds.completed (cut.split mixed) cut.kept = .ok other := by
  have wholeTypes : cut.whole.filterMap Definition.type? = cut.before.filterMap Definition.type? ++
      cut.definition :: cut.after.filterMap Definition.type? := List.filterMap_append
  have splitTypes : (cut.split mixed).filterMap Definition.type? = cut.before.filterMap Definition.type? ++
      cut.kept :: cut.after.filterMap Definition.type? := by
    rw [← placed.filterMap_eq fun _ => rfl]
    exact List.filterMap_append
  rw [declaredNames_eq, wholeTypes, List.map_append, List.map_cons, List.nodup_middle, List.nodup_cons,
    ← List.map_append] at distinct
  -- Names are distinct, so the blocks extend none of the other types.
  have others : ∀ definition ∈ cut.before.filterMap Definition.type? ++ cut.after.filterMap Definition.type?,
      kinds.completed (cut.split mixed) definition = kinds.completed cut.whole definition := by
    intro definition listed
    have different : cut.name ≠ definition.name := fun same =>
      distinct.1 (List.mem_map.mpr ⟨definition, listed, same.symm⟩)
    rw [Kinds.completed, Kinds.completed, placed.extensions_other different]
  obtain ⟨first, last⟩ := List.forall_mem_append.mp others
  rw [splitTypes, List.mapM_append, List.mapM_cons, mapM_congr first, mapM_congr last] at again
  rw [wholeTypes, List.mapM_append, List.mapM_cons] at given
  simp only [bind_eq_ok_iff] at given again
  obtain ⟨front, mapped, _, ⟨type, found, back, rest, ⟨⟩⟩, ⟨⟩⟩ := given
  obtain ⟨_, mappedAgain, _, ⟨other, foundAgain, _, restAgain, ⟨⟩⟩, ⟨⟩⟩ := again
  cases mapped.symm.trans mappedAgain
  cases rest.symm.trans restAgain
  exact ⟨front, type, other, back, rfl, rfl, found, foundAgain⟩

/-- The members of the type that is split are those that it had, in another order. -/
theorem Placed.sameButMembers (placed : Placed cut.name passes cut.blocks cut.after mixed)
    (found : kinds.completed cut.whole cut.definition = .ok type)
    (foundAgain : kinds.completed (cut.split mixed) cut.kept = .ok other) : SameButMembers other type := by
  obtain ⟨fields, interfaces, mapped, leaves, rfl⟩ := completed_object_eq_ok_iff.mp found
  obtain ⟨others, moreInterfaces, mappedAgain, leavesAgain, rfl⟩ := completed_object_eq_ok_iff.mp foundAgain
  have extensions : ((cut.split mixed).filterMap (Definition.extensionOf? cut.name)).Perm
      (cut.blocks ++ cut.whole.filterMap (Definition.extensionOf? cut.name)) := by
    have own : (Definition.type cut.definition).extensionOf? cut.name = none := rfl
    have kept : (Definition.type cut.kept).extensionOf? cut.name = none := rfl
    rw [Cut.split, Cut.whole, List.filterMap_append, List.filterMap_append, List.filterMap_cons_none own,
      List.filterMap_cons_none kept]
    refine (placed.extensions_perm.append_left _).trans ?_
    rw [← List.append_assoc, ← List.append_assoc]
    exact List.perm_append_comm.append_right _
  refine ⟨rfl, .some (perm_of_mapM_ok ?_ mappedAgain mapped), .some (perm_of_mapM_ok ?_ leavesAgain leaves)⟩
  · rw [List.append_assoc, ← List.flatMap_append]
    exact (extensions.flatMap_right _).append_left _
  · rw [List.append_assoc, ← List.flatMap_append]
    exact (extensions.flatMap_right _).append_left _

/-- If the blocks may pass what they stand behind, the type that is split is the same. -/
theorem Placed.completed_eq (placed : Placed cut.name (Exchangeable cut.name) cut.blocks cut.after mixed)
    (distinct : (declaredNames cut.whole).Nodup) (order : InOrder cut.whole)
    (found : kinds.completed cut.whole cut.definition = .ok type) :
    kinds.completed (cut.split mixed) cut.kept = .ok type := by
  obtain ⟨fields, interfaces, mapped, leaves, rfl⟩ := completed_object_eq_ok_iff.mp found
  have undefined : cut.name ∉ declaredNames cut.before := by
    rw [Cut.whole, declaredNames_append] at distinct
    exact fun defined => (List.nodup_append.mp distinct).2.2 _ defined _ List.mem_cons_self rfl
  -- Extensions stand behind their type, so those of this one are all where the blocks are placed.
  have unextended := unextended_of_inOrder order.of_append undefined
  have whole : cut.whole.filterMap (Definition.extensionOf? cut.name) =
      cut.after.filterMap (Definition.extensionOf? cut.name) := by
    rw [Cut.whole, List.filterMap_append, unextended]
    rfl
  have split : (cut.split mixed).filterMap (Definition.extensionOf? cut.name) =
      mixed.filterMap (Definition.extensionOf? cut.name) := by
    rw [Cut.split, List.filterMap_append, unextended]
    rfl
  obtain ⟨behindInterfaces, behindFields⟩ := placed.flatMap_extensions
  rw [whole, List.append_assoc] at mapped leaves
  refine completed_object_eq_ok_iff.mpr ⟨fields, interfaces, ?_, ?_, rfl⟩
  · rw [split, behindFields]
    exact mapped
  · rw [split, behindInterfaces]
    exact leaves

end Types

section Schemas
variable {cut : Cut} {mixed : List Definition} {schema : Schema} {text other : String}

structure Rearranged (name : String) (schema other : Schema) : Prop where
  queryType : schema.queryType = other.queryType
  mutationType : schema.mutationType = other.mutationType
  subscriptionType : schema.subscriptionType = other.subscriptionType
  types : List.Forall₂ (fun type other => type = other ∨ (other.name = name ∧ SameButMembers type other))
    schema.types other.types

theorem rearranged_resolved {front back : List NamedType} {type other : NamedType}
    (same : SameButMembers type other) (roots : RootNames) :
    Rearranged other.name (resolved roots (front ++ type :: back))
      (resolved roots (front ++ other :: back)) := by
  have name : type.name = other.name := (congrArg NamedType.name same.rest :)
  have names : (front ++ type :: back).map NamedType.name = (front ++ other :: back).map NamedType.name := by
    rw [List.map_append, List.map_append, List.map_cons, List.map_cons, name]
  have used : ((front ++ type :: back).flatMap NamedType.leafNames).Perm
      ((front ++ other :: back).flatMap NamedType.leafNames) := by
    rw [List.flatMap_append, List.flatMap_append, List.flatMap_cons, List.flatMap_cons]
    exact (same.leafNames_perm.append_right _).append_left _
  -- Roots and built-in scalars depend on the names that there are and that are used, in any order.
  have implied := impliedScalars_congr (.of_eq names) used
  have all : ((front ++ type :: back) ++ impliedScalars (front ++ type :: back)).map NamedType.name =
      ((front ++ other :: back) ++ impliedScalars (front ++ other :: back)).map NamedType.name := by
    rw [implied, List.map_append, names, ← List.map_append]
  refine ⟨rootName?_congr (.of_eq all), rootName?_congr (.of_eq all), rootName?_congr (.of_eq all), ?_⟩
  have equal (types : List NamedType) : List.Forall₂
      (fun first second => first = second ∨ (second.name = other.name ∧ SameButMembers first second))
      types types := List.forall₂_same.mpr fun _ _ => .inl rfl
  rw [resolved, resolved, implied]
  exact List.rel_append (List.rel_append (equal front) (.cons (.inr ⟨rfl, same⟩) (equal back))) (equal _)

/-- Definitions in which an object type is split are accepted like those before. The schema is the same but
for the order of the fields and interfaces of this type; and it is the same altogether if no block comes
with members of a sort behind an extension that has given the type such members before. -/
theorem split_accepted (read : read? text = some cut.whole) (again : read? other = some (cut.split mixed))
    (placed : Placed cut.name (fun _ _ => True) cut.blocks cut.after mixed)
    (distinct : (declaredNames cut.whole).Nodup) (accepted : Schema.ofDefinitions text = .ok schema) :
    ∃ result, Schema.ofDefinitions other = .ok result ∧ Rearranged cut.name result schema ∧
      (Placed cut.name (Exchangeable cut.name) cut.blocks cut.after mixed → result = schema) := by
  obtain ⟨_, same, described⟩ := ofDefinitions_eq_ok_iff.mp accepted
  obtain rfl := Option.some.inj (read.symm.trans same)
  obtain ⟨used, order⟩ := exists_schemaOf_iff.mp ⟨schema, described⟩
  have usedAgain : ∀ definition ∈ cut.split mixed, ∀ name ∈ definition.usedNames,
      name ∈ declaredNames (cut.split mixed) ∨ name ∈ builtinScalars := by
    intro definition member name inside
    obtain ⟨user, listed, uses⟩ := placed.exists_user member inside
    rw [placed.names_eq]
    exact used user listed name uses
  obtain ⟨result, found⟩ := exists_schemaOf_iff.mpr ⟨usedAgain, placed.inOrder order⟩
  -- Both runs know the same kinds and differ in one type.
  refine ⟨result, ofDefinitions_eq_ok_iff.mpr ⟨_, again, found⟩, ?_⟩
  obtain ⟨progress, run, rfl⟩ := schemaOf_eq_ok_iff.mp described
  obtain ⟨progress', runAgain, rfl⟩ := schemaOf_eq_ok_iff.mp found
  have roots : progress'.roots = progress.roots := by
    rw [roots_of_run run, roots_of_run runAgain, placed.roots_eq]
  have types := types_of_run distinct run
  have typesAgain := types_of_run (placed.names_eq ▸ distinct) runAgain
  rw [placed.kindsOf_eq] at typesAgain
  obtain ⟨front, type, changed, back, first, second, completed, completedAgain⟩ :=
    placed.types_split distinct types typesAgain
  rw [first, second, roots]
  constructor
  · have name : type.name = cut.name := name_of_completed completed
    rw [← name]
    exact rearranged_resolved (placed.sameButMembers completed completedAgain) _
  · intro exchangeable
    cases (exchangeable.completed_eq distinct order completed).symm.trans completedAgain
    rfl

inductive UsersPart where
  | named
  | user
  | kept
  | age
  | implements
  | tag
  deriving DecidableEq

def UsersPart.definition : UsersPart → Definition
  | named => .type ⟨"Named", none, .interface [] [⟨"name", none, [], .named "String", []⟩]⟩
  | user => .type ⟨"User", none, .object ["Named"]
      [⟨"name", none, [], .named "String", []⟩, ⟨"age", none, [], .named "Int", []⟩]⟩
  | kept => .type ⟨"User", none, .object [] [⟨"name", none, [], .named "String", []⟩]⟩
  | age => .objectExtension "User" [] [⟨"age", none, [], .named "Int", []⟩]
  | implements => .objectExtension "User" ["Named"] []
  | tag => .objectExtension "User" [] [⟨"tag", none, [], .named "Boolean", []⟩]

def UsersPart.of? : Definition → Option UsersPart
  | .type ⟨"Named", none, .interface [] [⟨"name", none, [], .named "String", []⟩]⟩ => some .named
  | .type ⟨"User", none, .object ["Named"]
      [⟨"name", none, [], .named "String", []⟩, ⟨"age", none, [], .named "Int", []⟩]⟩ => some .user
  | .type ⟨"User", none, .object [] [⟨"name", none, [], .named "String", []⟩]⟩ => some .kept
  | .objectExtension "User" [] [⟨"age", none, [], .named "Int", []⟩] => some .age
  | .objectExtension "User" ["Named"] [] => some .implements
  | .objectExtension "User" [] [⟨"tag", none, [], .named "Boolean", []⟩] => some .tag
  | _ => none

theorem UsersPart.eq_of_of? {given : Definition} {part : UsersPart} (seen : of? given = some part) :
    given = part.definition := by
  unfold of? at seen
  split at seen <;> cases seen <;> rfl

def usersText : String :=
  "interface Named \x7b name: String \x7d type User implements Named \x7b name: String age: Int \x7d" ++
    " extend type User \x7b tag: Boolean \x7d"

def splitText : String :=
  "interface Named \x7b name: String \x7d type User \x7b name: String \x7d" ++
    " extend type User \x7b age: Int \x7d extend type User \x7b tag: Boolean \x7d" ++
    " extend type User implements Named"

def lateText : String :=
  "interface Named \x7b name: String \x7d type User \x7b name: String \x7d" ++
    " extend type User \x7b tag: Boolean \x7d extend type User \x7b age: Int \x7d" ++
    " extend type User implements Named"

def usersCut : Cut where
  before := [UsersPart.named.definition]
  name := "User"
  description := none
  interfaces := []
  fields := [⟨"name", none, [], .named "String", []⟩]
  blocks := [([], [⟨"age", none, [], .named "Int", []⟩]), (["Named"], [])]
  after := [UsersPart.tag.definition]

theorem read?_usersText : read? usersText = some usersCut.whole := by
  have seen : (read? usersText).map (List.map UsersPart.of?) =
      some ([UsersPart.named, .user, .tag].map some) := by decide +kernel
  exact eq_of_parts UsersPart.eq_of_of? seen

theorem read?_splitText : read? splitText =
    some (usersCut.split ([UsersPart.age, .tag, .implements].map UsersPart.definition)) := by
  have seen : (read? splitText).map (List.map UsersPart.of?) =
      some ([UsersPart.named, .kept, .age, .tag, .implements].map some) := by decide +kernel
  exact eq_of_parts UsersPart.eq_of_of? seen

theorem read?_lateText : read? lateText =
    some (usersCut.split ([UsersPart.tag, .age, .implements].map UsersPart.definition)) := by
  have seen : (read? lateText).map (List.map UsersPart.of?) =
      some ([UsersPart.named, .kept, .tag, .age, .implements].map some) := by decide +kernel
  exact eq_of_parts UsersPart.eq_of_of? seen

theorem exists_usersText_schema : ∃ schema, Schema.ofDefinitions usersText = .ok schema := by
  obtain ⟨schema, described⟩ : ∃ schema, schemaOf usersCut.whole = .ok schema := ⟨_, rfl⟩
  exact ⟨schema, ofDefinitions_eq_ok_iff.mpr ⟨_, read?_usersText, described⟩⟩

theorem placed_late : Placed usersCut.name (fun _ _ => True) usersCut.blocks usersCut.after
    ([UsersPart.tag, .age, .implements].map UsersPart.definition) :=
  .keep (fun _ _ => trivial) (.place (.place .nil))

theorem usersText_split : ∃ schema, Schema.ofDefinitions usersText = .ok schema ∧
    Schema.ofDefinitions splitText = .ok schema ∧
    ∃ result, Schema.ofDefinitions lateText = .ok result ∧ Rearranged "User" result schema := by
  obtain ⟨schema, accepted⟩ := exists_usersText_schema
  have distinct : (declaredNames usersCut.whole).Nodup := by decide
  have placed (passes : Definition → Block → Prop)
      (pass : passes UsersPart.tag.definition (["Named"], [])) :
      Placed usersCut.name passes usersCut.blocks usersCut.after
        ([UsersPart.age, .tag, .implements].map UsersPart.definition) :=
    .place (.keep (List.forall_mem_singleton.mpr pass) (.place .nil))
  have exchangeable : Exchangeable usersCut.name UsersPart.tag.definition (["Named"], []) := by
    rintro own ⟨⟩
    exact ⟨.inl rfl, .inr rfl⟩
  obtain ⟨result, again, -, same⟩ := split_accepted read?_usersText read?_splitText
    (placed _ trivial) distinct accepted
  obtain ⟨late, lateAccepted, rearranged, -⟩ :=
    split_accepted read?_usersText read?_lateText placed_late distinct accepted
  exact ⟨schema, accepted, same (placed _ exchangeable) ▸ again, late, lateAccepted, rearranged⟩

theorem lateText_differs : ¬ ∀ (text other : String) (cut : Cut) (mixed : List Definition) (schema : Schema),
    read? text = some cut.whole → read? other = some (cut.split mixed) →
      (∀ block ∈ cut.blocks, block.1 ≠ [] ∨ block.2 ≠ []) →
      Placed cut.name (fun _ _ => True) cut.blocks cut.after mixed → (declaredNames cut.whole).Nodup →
      Schema.ofDefinitions text = .ok schema → Schema.ofDefinitions other = .ok schema := by
  intro always
  obtain ⟨schema, accepted⟩ := exists_usersText_schema
  have found := always usersText lateText usersCut _ schema read?_usersText read?_lateText
    (by simp [usersCut]) placed_late (by decide) accepted
  have different : (schemaOf (usersCut.split ([UsersPart.tag, .age, .implements].map
      UsersPart.definition))).toOption ≠ (schemaOf usersCut.whole).toOption := by
    decide +kernel
  rw [Schema.ofDefinitions, read?_lateText] at found
  rw [Schema.ofDefinitions, read?_usersText] at accepted
  exact different (congrArg Except.toOption (found.trans accepted.symm))

end Schemas

end TypedClient.GraphQl.Definitions
