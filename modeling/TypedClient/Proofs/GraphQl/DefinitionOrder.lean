import TypedClient.Proofs.GraphQl.Steps

/-! Definitions in another order.

Each type of a schema depends on its own definition and the extensions of its name only, so the order of
the definitions is that of the types and nothing else, once it is accepted. It is accepted if no
extension stands in front of its type.
-/

set_option autoImplicit false

namespace TypedClient.GraphQl.Definitions

section Parts

def Definition.type? : Definition → Option TypeDefinition
  | type definition => some definition
  | roots _ | objectExtension _ _ _ | inert => none

def Definition.roots? : Definition → Option RootNames
  | roots names => some names
  | type _ | objectExtension _ _ _ | inert => none

def Definition.extendedName? : Definition → Option String
  | objectExtension name _ _ => some name
  | roots _ | type _ | inert => none

def Definition.extensionOf? (name : String) : Definition → Option (List String × List FieldDefinition)
  | objectExtension other interfaces fields => if other = name then some (interfaces, fields) else none
  | roots _ | type _ | inert => none

theorem extensionOf?_same {name : String} {interfaces : List String} {fields : List FieldDefinition} :
    (Definition.objectExtension name interfaces fields).extensionOf? name = some (interfaces, fields) :=
  if_pos rfl

theorem extensionOf?_other {name other : String} {interfaces : List String} {fields : List FieldDefinition}
    (different : other ≠ name) : (Definition.objectExtension other interfaces fields).extensionOf? name = none :=
  if_neg different

/-- Every type is defined once and extended at most once, and there is at most one schema block. -/
structure Unambiguous (definitions : List Definition) : Prop where
  types : (declaredNames definitions).Nodup
  extensions : (definitions.filterMap Definition.extendedName?).Nodup
  block : (definitions.filterMap Definition.roots?).length ≤ 1

theorem filterMap_append_none {α β : Type} {f : α → Option β} {items : List α} {item : α}
    (none : f item = none) : (items ++ [item]).filterMap f = items.filterMap f := by
  rw [List.filterMap_append, List.filterMap_cons_none none, List.filterMap_nil, List.append_nil]

theorem declaredNames_append (definitions others : List Definition) :
    declaredNames (definitions ++ others) = declaredNames definitions ++ declaredNames others := by
  simp [declaredNames]

theorem declaredNames_eq (definitions : List Definition) :
    declaredNames definitions = (definitions.filterMap Definition.type?).map TypeDefinition.name := by
  rw [declaredNames, List.map_filterMap, List.map_filterMap]
  refine List.filterMap_congr fun definition _ => ?_
  cases definition <;> rfl

end Parts

section Completion
variable {kinds : Kinds} {definitions : List Definition} {definition : TypeDefinition}

def Kinds.extend (kinds : Kinds) (type : NamedType) (extension : List String × List FieldDefinition) :
    Except Fault NamedType := do
  let fields ← extension.2.mapM kinds.field
  let interfaces ← extension.1.mapM kinds.leaf
  return extended fields interfaces type

/-- The type of a definition with all extensions of its name. -/
def Kinds.completed (kinds : Kinds) (definitions : List Definition) (definition : TypeDefinition) :
    Except Fault NamedType := do
  let type ← kinds.namedType definition
  (definitions.filterMap (Definition.extensionOf? definition.name)).foldlM kinds.extend type

theorem name_of_extend {type result : NamedType} {extension : List String × List FieldDefinition}
    (found : kinds.extend type extension = .ok result) : result.name = type.name := by
  obtain ⟨_, -, found⟩ := bind_eq_ok_iff.mp found
  obtain ⟨_, -, ⟨⟩⟩ := bind_eq_ok_iff.mp found
  rfl

theorem name_of_extensions {extensions : List (List String × List FieldDefinition)} {type result : NamedType}
    (found : extensions.foldlM kinds.extend type = .ok result) : result.name = type.name := by
  induction extensions generalizing type with
  | nil =>
    cases found
    rfl
  | cons extension extensions ih =>
    rw [List.foldlM_cons] at found
    obtain ⟨next, first, rest⟩ := bind_eq_ok_iff.mp found
    rw [ih rest, name_of_extend first]

theorem name_of_completed {type : NamedType} (found : kinds.completed definitions definition = .ok type) :
    type.name = definition.name := by
  obtain ⟨bare, first, rest⟩ := bind_eq_ok_iff.mp found
  rw [name_of_extensions rest, name_of_namedType first]

theorem completed_of_unextended
    (none : definitions.filterMap (Definition.extensionOf? definition.name) = []) :
    kinds.completed definitions definition = kinds.namedType definition := by
  rw [Kinds.completed, none]
  exact bind_pure _

theorem completed_append (more : List Definition) : kinds.completed (definitions ++ more) definition =
    (do
      let type ← kinds.completed definitions definition
      (more.filterMap (Definition.extensionOf? definition.name)).foldlM kinds.extend type) := by
  simp only [Kinds.completed, List.filterMap_append, List.foldlM_append, bind_assoc]

theorem completed_append_other {last : Definition} (other : last.extensionOf? definition.name = none) :
    kinds.completed (definitions ++ [last]) definition = kinds.completed definitions definition := by
  rw [completed_append, List.filterMap_cons_none other]
  exact bind_pure _

end Completion

section Runs
variable {kinds : Kinds} {definitions : List Definition} {result : Progress}

theorem changeFirst_eq_map {name : String} {change : NamedType → NamedType} {types : List NamedType}
    (distinct : (types.map NamedType.name).Nodup) :
    changeFirst name change types = types.map fun type => if type.name = name then change type else type := by
  induction types with
  | nil => rfl
  | cons first types ih =>
    obtain ⟨absent, others⟩ := List.nodup_cons.mp distinct
    unfold changeFirst
    split_ifs with same
    · have rest : types.map (fun type => if type.name = name then change type else type) = types.map id := by
        refine List.map_congr_left fun type member => if_neg fun named => ?_
        exact absent (List.mem_map.mpr ⟨type, member, named.trans same.symm⟩)
      rw [List.map_cons, if_pos same, rest, List.map_id]
    · rw [List.map_cons, if_neg same, ih others]

theorem declared_of_inOrder {name : String} {interfaces : List String} {fields : List FieldDefinition}
    (order : InOrder definitions) (member : .objectExtension name interfaces fields ∈ definitions) :
    name ∈ declaredNames definitions := by
  obtain ⟨before, behind, rfl⟩ := List.append_of_mem member
  rw [declaredNames_append]
  exact List.mem_append_left _ (order before name interfaces fields behind rfl)

theorem unextended_of_inOrder {name : String} (order : InOrder definitions)
    (undefined : name ∉ declaredNames definitions) :
    definitions.filterMap (Definition.extensionOf? name) = [] := by
  refine List.filterMap_eq_nil_iff.mpr fun definition member => ?_
  cases definition with
  | objectExtension other interfaces fields =>
    refine extensionOf?_other ?_
    rintro rfl
    exact undefined (declared_of_inOrder order member)
  | _ => rfl

/-- The types of a run are those that are defined, each with the extensions of its name. -/
theorem types_of_run (distinct : (declaredNames definitions).Nodup)
    (run : definitions.foldlM (Progress.add kinds) Progress.start = .ok result) :
    (definitions.filterMap Definition.type?).mapM (kinds.completed definitions) = .ok result.types := by
  induction definitions using List.reverseRecOn generalizing result with
  | nil =>
    cases run
    rfl
  | append_singleton done last ih =>
    obtain ⟨progress, before, added⟩ := run_append_singleton.mp run
    rw [declaredNames_append] at distinct
    have types := mapM_eq_ok_iff.mp (ih distinct.of_append_left before)
    rw [mapM_eq_ok_iff]
    cases added with
    | roots | inert =>
      rw [filterMap_append_none rfl]
      exact types.imp fun definition type found => (completed_append_other rfl).trans found
    | @type definition type found =>
      -- No extension of a later type has been taken in yet.
      have undefined : definition.name ∉ declaredNames done := fun defined =>
        (List.nodup_append.mp distinct).2.2 _ defined _ List.mem_cons_self rfl
      have order := (exists_run_iff.mp ⟨progress, before⟩).2
      rw [List.filterMap_append]
      refine List.rel_append (types.imp fun definition type found => (completed_append_other rfl).trans found)
        (.cons ?_ .nil)
      rw [completed_append_other rfl, completed_of_unextended (unextended_of_inOrder order undefined), found]
    -- Only one type of the name is there, so changing the first one changes that one.
    | @extension name interfaces fields moreFields moreInterfaces known eachField eachInterface =>
      have names : (progress.types.map NamedType.name).Nodup := names_of_run before ▸ distinct.of_append_left
      rw [filterMap_append_none rfl, changeFirst_eq_map names, List.forall₂_map_right_iff]
      refine types.imp fun definition type found => ?_
      rw [name_of_completed found]
      split_ifs with same
      · subst same
        rw [completed_append, found, ok_bind, List.filterMap_cons_some extensionOf?_same]
        simp only [List.filterMap_nil, List.foldlM_cons, List.foldlM_nil, bind_pure]
        exact bind_eq_ok_iff.mpr ⟨_, eachField, bind_eq_ok_iff.mpr ⟨_, eachInterface, rfl⟩⟩
      · rw [completed_append_other (extensionOf?_other (Ne.symm same)), found]

/-- The roots of a run are those of its last schema block. -/
theorem roots_of_run (run : definitions.foldlM (Progress.add kinds) Progress.start = .ok result) :
    result.roots = (definitions.filterMap Definition.roots?).getLast?.getD RootNames.none := by
  refine run_induction (motive := fun done progress =>
    progress.roots = (done.filterMap Definition.roots?).getLast?.getD RootNames.none) rfl ?_ run
  intro done progress definition next before added
  cases added with
  | roots => simp [Definition.roots?]
  | type | extension | inert => rw [filterMap_append_none rfl, before]

end Runs

section Kinds
variable {kinds others : Kinds} (same : ∀ name, kinds.lookup name = others.lookup name)
include same

theorem leaf_congr : kinds.leaf = others.leaf := by
  funext name
  rw [Kinds.leaf, Kinds.leaf, same]

theorem typeRef_congr : kinds.typeRef = others.typeRef := by
  funext use
  induction use with
  | named name => exact congrFun (leaf_congr same) name
  | list item ih | nonNull item ih => rw [Kinds.typeRef, Kinds.typeRef, ih]

theorem inputValue_congr : kinds.inputValue = others.inputValue := by
  funext input
  rw [Kinds.inputValue, Kinds.inputValue, typeRef_congr same]

theorem field_congr : kinds.field = others.field := by
  funext field
  rw [Kinds.field, Kinds.field, inputValue_congr same, typeRef_congr same]

theorem namedType_congr : kinds.namedType = others.namedType := by
  funext definition
  rw [Kinds.namedType, Kinds.namedType, inputValue_congr same, field_congr same, leaf_congr same]

theorem completed_congr : kinds.completed = others.completed := by
  funext definitions definition
  unfold Kinds.completed Kinds.extend
  rw [namedType_congr same, field_congr same, leaf_congr same]

end Kinds

section Permutations
variable {definitions others : List Definition}

theorem eq_of_perm_of_length_le_one {α : Type} {items more : List α} (permuted : items.Perm more)
    (short : items.length ≤ 1) : items = more := by
  match items, short with
  | [], _ => exact permuted.nil_eq
  | [item], _ => exact (List.singleton_perm.mp permuted)

theorem perm_of_mapM_ok {α β : Type} {f : α → Except Fault β} {items others : List α} {results more : List β}
    (permuted : items.Perm others) (mapped : items.mapM f = .ok results) (again : others.mapM f = .ok more) :
    results.Perm more := by
  obtain ⟨reordered, found, perm⟩ := List.perm_comp_forall₂ permuted (mapM_eq_ok_iff.mp again)
  rw [← mapM_eq_ok_iff, mapped] at found
  cases found
  exact perm

theorem lookup_perm {α β : Type} [BEq α] [LawfulBEq α] {entries more : List (α × β)}
    (distinct : (entries.map Prod.fst).Nodup) (permuted : entries.Perm more) (key : α) :
    entries.lookup key = more.lookup key := by
  cases found : more.lookup key with
  | some value =>
    obtain ⟨before, behind, rfl, -⟩ := List.lookup_eq_some_iff.mp found
    exact lookup_of_mem distinct (permuted.mem_iff.mpr (List.mem_append_right _ List.mem_cons_self))
  | none =>
    exact List.lookup_eq_none_iff.mpr fun entry member =>
      List.lookup_eq_none_iff.mp found entry (permuted.mem_iff.mp member)

theorem lookup_kindsOf_perm (distinct : (declaredNames definitions).Nodup) (permuted : others.Perm definitions)
    (name : String) : (kindsOf definitions).lookup name = (kindsOf others).lookup name := by
  have entries := permuted.filterMap Definition.kindEntry?
  have reversed : ((definitions.filterMap Definition.kindEntry?).reverse.map Prod.fst).Nodup := by
    rw [List.map_reverse, List.nodup_reverse]
    exact distinct
  rw [kindsOf, kindsOf, List.lookup_append, List.lookup_append, lookup_perm reversed]
  exact (List.reverse_perm _).trans (entries.symm.trans (List.reverse_perm _).symm)

theorem declaredNames_perm (permuted : others.Perm definitions) :
    (declaredNames others).Perm (declaredNames definitions) :=
  (permuted.filterMap Definition.kindEntry?).map Prod.fst

theorem length_extensionOf (name : String) : (definitions.filterMap (Definition.extensionOf? name)).length =
    (definitions.filterMap Definition.extendedName?).count name := by
  induction definitions with
  | nil => rfl
  | cons definition definitions ih =>
    cases definition with
    | objectExtension other interfaces fields =>
      have named : (Definition.objectExtension other interfaces fields).extendedName? = some other := rfl
      rw [List.filterMap_cons_some named]
      by_cases same : other = name
      · subst same
        rw [List.filterMap_cons_some extensionOf?_same, List.length_cons, ih, List.count_cons_self]
      · rw [List.filterMap_cons_none (extensionOf?_other same), ih, List.count_cons_of_ne same]
    | _ => exact ih

/-- A type has at most one extension, wherever that is. -/
theorem extensionOf_perm (once : (definitions.filterMap Definition.extendedName?).Nodup)
    (permuted : others.Perm definitions) (name : String) :
    others.filterMap (Definition.extensionOf? name) = definitions.filterMap (Definition.extensionOf? name) := by
  refine (eq_of_perm_of_length_le_one (permuted.filterMap _).symm ?_).symm
  rw [length_extensionOf]
  exact List.nodup_iff_count_le_one.mp once name

/-- Two runs over the same definitions give the same roots and the same types. -/
theorem runs_perm (clear : Unambiguous definitions) (permuted : others.Perm definitions)
    {progress result : Progress}
    (run : definitions.foldlM (Progress.add (kindsOf definitions)) Progress.start = .ok progress)
    (again : others.foldlM (Progress.add (kindsOf others)) Progress.start = .ok result) :
    result.roots = progress.roots ∧ result.types.Perm progress.types := by
  have blocks : definitions.filterMap Definition.roots? = others.filterMap Definition.roots? :=
    eq_of_perm_of_length_le_one (permuted.filterMap _).symm clear.block
  have types := types_of_run clear.types run
  have more := types_of_run ((declaredNames_perm permuted).nodup_iff.mpr clear.types) again
  have same : (kindsOf others).completed others = (kindsOf definitions).completed definitions := by
    rw [completed_congr (lookup_kindsOf_perm clear.types permuted)]
    funext definition
    rw [Kinds.completed, Kinds.completed, extensionOf_perm clear.extensions permuted]
  rw [same] at more
  exact ⟨by rw [roots_of_run run, roots_of_run again, blocks],
    perm_of_mapM_ok (permuted.filterMap Definition.type?) more types⟩

end Permutations

section Faults
variable {kinds : Kinds} {progress : Progress} {fault : Fault}

theorem fault_of_add {definition : Definition} (declared : ∀ name ∈ definition.usedNames, kinds.Declares name)
    (failed : progress.add kinds definition = .error fault) : ∃ name interfaces fields,
      definition = .objectExtension name interfaces fields ∧ fault = .undefinedExtension name := by
  have rejected (known : ∀ name interfaces fields, definition = .objectExtension name interfaces fields →
      name ∈ progress.types.map NamedType.name) : False := by
    obtain ⟨next, added⟩ := exists_added_iff.mpr ⟨declared, known⟩
    rw [add_eq_ok_iff.mpr added] at failed
    cases failed
  cases definition with
  | objectExtension name interfaces fields =>
    by_cases known : progress.has name = true
    · refine (rejected ?_).elim
      rintro _ _ _ ⟨⟩
      exact has_iff.mp known
    · rw [Progress.add, if_neg known] at failed
      cases failed
      exact ⟨name, interfaces, fields, rfl, rfl⟩
  | _ =>
    refine (rejected ?_).elim
    rintro _ _ _ ⟨⟩

/-- If all names have kinds, only an extension can be at fault. -/
theorem fault_of_run {definitions : List Definition}
    (declared : ∀ definition ∈ definitions, ∀ name ∈ definition.usedNames, kinds.Declares name)
    (failed : definitions.foldlM (Progress.add kinds) progress = .error fault) : ∃ name interfaces fields,
      .objectExtension name interfaces fields ∈ definitions ∧ fault = .undefinedExtension name := by
  induction definitions generalizing progress with
  | nil => cases failed
  | cons definition definitions ih =>
    obtain ⟨first, others⟩ := List.forall_mem_cons.mp declared
    rw [List.foldlM_cons] at failed
    cases added : progress.add kinds definition with
    | ok next =>
      rw [added, ok_bind] at failed
      obtain ⟨name, interfaces, fields, member, rfl⟩ := ih others failed
      exact ⟨name, interfaces, fields, List.mem_cons_of_mem _ member, rfl⟩
    | error fault =>
      rw [added] at failed
      cases failed
      obtain ⟨name, interfaces, fields, rfl, rfl⟩ := fault_of_add first added
      exact ⟨name, interfaces, fields, List.mem_cons_self, rfl⟩

theorem run_of_schemaOf_error {definitions : List Definition} (failed : schemaOf definitions = .error fault) :
    definitions.foldlM (Progress.add (kindsOf definitions)) Progress.start = .error fault := by
  simp only [schemaOf] at failed
  cases run : definitions.foldlM (Progress.add (kindsOf definitions)) Progress.start with
  | ok progress =>
    rw [run] at failed
    cases failed
  | error other =>
    rw [run] at failed
    cases failed
    rfl

end Faults

section Schemas
variable {definitions others : List Definition} {schema : Schema} {text other : String}

structure SameButOrder (schema other : Schema) : Prop where
  queryType : schema.queryType = other.queryType
  mutationType : schema.mutationType = other.mutationType
  subscriptionType : schema.subscriptionType = other.subscriptionType
  types : schema.types.Perm other.types

theorem sameButOrder_resolved {types more : List NamedType} (permuted : types.Perm more) (roots : RootNames) :
    SameButOrder (resolved roots types) (resolved roots more) := by
  have all : (types ++ impliedScalars types).Perm (more ++ impliedScalars more) := by
    rw [impliedScalars_congr (permuted.map _) (permuted.flatMap_right _)]
    exact permuted.append_right _
  have names := all.map NamedType.name
  exact ⟨rootName?_congr names, rootName?_congr names, rootName?_congr names, all⟩

/-- Definitions in another order are accepted if every extension still stands behind its type. Their
schema is the same but for the order of its types. If they are not accepted, the fault is that a type is
not defined, although it is. -/
theorem reordered_accepted (read : read? text = some definitions) (again : read? other = some others)
    (permuted : others.Perm definitions) (clear : Unambiguous definitions)
    (accepted : Schema.ofDefinitions text = .ok schema) :
    (InOrder others → ∃ result, Schema.ofDefinitions other = .ok result ∧ SameButOrder result schema) ∧
      (¬ InOrder others → ∃ name ∈ declaredNames others,
        Schema.ofDefinitions other = .error (.undefinedExtension name)) := by
  obtain ⟨_, same, described⟩ := ofDefinitions_eq_ok_iff.mp accepted
  obtain rfl := Option.some.inj (read.symm.trans same)
  obtain ⟨used, order⟩ := exists_schemaOf_iff.mp ⟨schema, described⟩
  have names := declaredNames_perm permuted
  -- Which names are declared does not depend on the order, only the place of extensions does.
  have usedAgain : ∀ definition ∈ others, ∀ name ∈ definition.usedNames,
      name ∈ declaredNames others ∨ name ∈ builtinScalars := fun definition member name inside =>
    (used definition (permuted.mem_iff.mp member) name inside).imp_left names.mem_iff.mpr
  have outcome : Schema.ofDefinitions other = schemaOf others := by
    rw [Schema.ofDefinitions, again]
  constructor
  · intro inOrder
    obtain ⟨result, found⟩ := exists_schemaOf_iff.mpr ⟨usedAgain, inOrder⟩
    refine ⟨result, outcome.trans found, ?_⟩
    obtain ⟨progress, run, rfl⟩ := schemaOf_eq_ok_iff.mp described
    obtain ⟨progress', runAgain, rfl⟩ := schemaOf_eq_ok_iff.mp found
    obtain ⟨roots, types⟩ := runs_perm clear permuted run runAgain
    rw [roots]
    exact sameButOrder_resolved types _
  · intro disorder
    cases found : schemaOf others with
    | ok result => exact absurd (exists_schemaOf_iff.mp ⟨result, found⟩).2 disorder
    | error fault =>
      have declared : ∀ definition ∈ others, ∀ name ∈ definition.usedNames,
          (kindsOf others).Declares name := fun definition member name inside =>
        declares_kindsOf_iff.mpr (usedAgain definition member name inside)
      obtain ⟨name, interfaces, fields, member, rfl⟩ :=
        fault_of_run declared (run_of_schemaOf_error found)
      exact ⟨name, names.mem_iff.mpr (declared_of_inOrder order (permuted.mem_iff.mp member)),
        outcome.trans found⟩

/-- Definitions have no decidable equality, but some that are known can be told apart. -/
theorem eq_of_parts {Part : Type} {definition : Part → Definition} {of? : Definition → Option Part}
    (eq_of_of? : ∀ {given : Definition} {part : Part}, of? given = some part → given = definition part)
    {found : Option (List Definition)} {parts : List Part}
    (seen : found.map (List.map of?) = some (parts.map some)) : found = some (parts.map definition) := by
  obtain ⟨definitions, rfl, same⟩ := Option.map_eq_some_iff.mp seen
  rw [← List.forall₂_eq_eq_eq, List.forall₂_map_left_iff, List.forall₂_map_right_iff] at same
  rw [Option.some_inj, ← List.forall₂_eq_eq_eq, List.forall₂_map_right_iff]
  exact same.imp fun _ _ => eq_of_of?

inductive DatesPart where
  | query
  | extension
  | scalar
  deriving DecidableEq

def DatesPart.definition : DatesPart → Definition
  | query => .type ⟨"Query", none, .object [] [⟨"date", none, [], .named "Date", []⟩]⟩
  | extension => .objectExtension "Query" [] [⟨"done", none, [], .named "Boolean", []⟩]
  | scalar => .type ⟨"Date", none, .scalar⟩

def DatesPart.of? : Definition → Option DatesPart
  | .type ⟨"Query", none, .object [] [⟨"date", none, [], .named "Date", []⟩]⟩ => some .query
  | .objectExtension "Query" [] [⟨"done", none, [], .named "Boolean", []⟩] => some .extension
  | .type ⟨"Date", none, .scalar⟩ => some .scalar
  | _ => none

theorem DatesPart.eq_of_of? {definition : Definition} {part : DatesPart} (seen : of? definition = some part) :
    definition = part.definition := by
  unfold of? at seen
  split at seen <;> cases seen <;> rfl

def datesText : String :=
  "type Query \x7b date: Date \x7d extend type Query \x7b done: Boolean \x7d scalar Date"

def scalarFirstText : String :=
  "scalar Date type Query \x7b date: Date \x7d extend type Query \x7b done: Boolean \x7d"

def extensionFirstText : String :=
  "extend type Query \x7b done: Boolean \x7d type Query \x7b date: Date \x7d scalar Date"

def datesParts : List DatesPart := [.query, .extension, .scalar]

theorem read?_datesText : read? datesText = some (datesParts.map DatesPart.definition) :=
  eq_of_parts DatesPart.eq_of_of? (by decide +kernel)

theorem read?_scalarFirstText :
    read? scalarFirstText = some ([.scalar, .query, .extension].map DatesPart.definition) :=
  eq_of_parts DatesPart.eq_of_of? (by decide +kernel)

theorem read?_extensionFirstText :
    read? extensionFirstText = some ([.extension, .query, .scalar].map DatesPart.definition) :=
  eq_of_parts DatesPart.eq_of_of? (by decide +kernel)

theorem unambiguous_dates : Unambiguous (datesParts.map DatesPart.definition) :=
  ⟨by decide, by decide, by decide⟩

theorem exists_datesText_schema : ∃ schema, Schema.ofDefinitions datesText = .ok schema := by
  have accepted : (Schema.ofDefinitions datesText).toOption.isSome = true := by decide +kernel
  obtain ⟨schema, found⟩ := Option.isSome_iff_exists.mp accepted
  exact ⟨schema, toOption_eq_some_iff.mp found⟩

theorem scalarFirstText_accepted : ∃ schema, Schema.ofDefinitions datesText = .ok schema ∧
    ∃ result, Schema.ofDefinitions scalarFirstText = .ok result ∧ SameButOrder result schema := by
  obtain ⟨schema, accepted⟩ := exists_datesText_schema
  have permuted : [DatesPart.scalar, .query, .extension].Perm datesParts := by decide
  obtain ⟨result, again⟩ : ∃ result,
      schemaOf ([.scalar, .query, .extension].map DatesPart.definition) = .ok result := ⟨_, rfl⟩
  have inOrder := (exists_schemaOf_iff.mp ⟨result, again⟩).2
  exact ⟨schema, accepted, (reordered_accepted read?_datesText read?_scalarFirstText
    (permuted.map _) unambiguous_dates accepted).1 inOrder⟩

theorem extensionFirstText_not_accepted : ¬ ∀ (text other : String) (definitions others : List Definition)
    (schema : Schema), read? text = some definitions → read? other = some others →
      others.Perm definitions → Unambiguous definitions → Schema.ofDefinitions text = .ok schema →
        ∃ result, Schema.ofDefinitions other = .ok result ∧ SameButOrder result schema := by
  intro always
  obtain ⟨schema, accepted⟩ := exists_datesText_schema
  obtain ⟨result, found, -⟩ := always datesText extensionFirstText _ _ schema read?_datesText
    read?_extensionFirstText (.swap _ _ _) unambiguous_dates accepted
  have rejected : (Schema.ofDefinitions extensionFirstText).isOk = false := by decide +kernel
  rw [found] at rejected
  cases rejected

end Schemas

end TypedClient.GraphQl.Definitions
