import TypedClient.OpenApi.SchemaMapping

/-! Schemas as trees: their immediate parts, recursion and induction over them.

Everything that is computed from a schema alone is a `fold`, so its value on
keywords is one equation over the values of the parts.
-/

set_option autoImplicit false

namespace TypedClient.OpenApi

variable {σ τ : Type}

def ExtraProperties.map (f : σ → τ) : ExtraProperties σ → ExtraProperties τ
  | .anyValue allowed => .anyValue allowed
  | .each values => .each (f values)

namespace Keywords

def bare : Keywords σ := ⟨none, none, [], none, none, none, none, none, none, none, false⟩

def map (f : σ → τ) (content : Keywords σ) : Keywords τ where
  types := content.types
  properties := content.properties.map (List.map fun property => (property.1, f property.2))
  required := content.required
  items := content.items.map f
  enumeration := content.enumeration
  anyOf := content.anyOf.map (List.map f)
  oneOf := content.oneOf.map (List.map f)
  allOf := content.allOf.map (List.map f)
  extra := content.extra.map (ExtraProperties.map f)
  constant := content.constant
  nullable := content.nullable

def extraPart (content : Keywords σ) : List σ :=
  match content.extra with
  | some (.each values) => [values]
  | _ => []

def objectParts (content : Keywords σ) : List σ :=
  (content.properties.getD []).map (·.2) ++ content.extraPart

/-- Every immediate part, whether or not it has a say in the type. -/
def parts (content : Keywords σ) : List σ :=
  content.objectParts ++ content.items.toList ++ content.anyOf.getD [] ++ content.oneOf.getD [] ++
    content.allOf.getD []

theorem objectParts_subset (content : Keywords σ) : content.objectParts ⊆ content.parts := by
  intro part member
  simp [parts, member]

theorem items_subset (content : Keywords σ) : content.items.toList ⊆ content.parts := by
  intro part member
  simp only [parts, List.mem_append, member, or_true, true_or]

theorem anyOf_subset (content : Keywords σ) : content.anyOf.getD [] ⊆ content.parts := by
  intro part member
  simp [parts, member]

theorem oneOf_subset (content : Keywords σ) : content.oneOf.getD [] ⊆ content.parts := by
  intro part member
  simp [parts, member]

theorem allOf_subset (content : Keywords σ) : content.allOf.getD [] ⊆ content.parts := by
  intro part member
  simp [parts, member]

end Keywords

namespace Schema

section Fold
variable {α : Type} (reference : String → α) (keywords : Keywords α → α)

mutual

def fold : Schema → α
  | .reference target => reference target
  | .keywords ⟨types, properties, required, items, enumeration, anyOf, oneOf, allOf, extra, constant,
      nullable⟩ =>
    keywords ⟨types, foldFields? properties, required, foldItems items, enumeration,
      foldList? anyOf, foldList? oneOf, foldList? allOf, foldExtra extra, constant, nullable⟩

def foldItems : Option Schema → Option α
  | none => none
  | some schema => some schema.fold

def foldExtra : Option (ExtraProperties Schema) → Option (ExtraProperties α)
  | none => none
  | some (.anyValue allowed) => some (.anyValue allowed)
  | some (.each schema) => some (.each schema.fold)

def foldList? : Option (List Schema) → Option (List α)
  | none => none
  | some schemas => some (foldList schemas)

def foldList : List Schema → List α
  | [] => []
  | schema :: rest => schema.fold :: foldList rest

def foldFields? : Option (List (String × Schema)) → Option (List (String × α))
  | none => none
  | some properties => some (foldFields properties)

def foldFields : List (String × Schema) → List (String × α)
  | [] => []
  | (name, schema) :: rest => (name, schema.fold) :: foldFields rest

end

theorem foldList_eq (schemas : List Schema) :
    foldList reference keywords schemas = schemas.map (fold reference keywords) := by
  induction schemas with
  | nil => rfl
  | cons schema rest ih => simp only [foldList, ih, List.map_cons]

theorem foldFields_eq (properties : List (String × Schema)) :
    foldFields reference keywords properties =
      properties.map fun property => (property.1, fold reference keywords property.2) := by
  induction properties with
  | nil => rfl
  | cons property rest ih => simp only [foldFields, ih, List.map_cons]

theorem foldList?_eq (schemas : Option (List Schema)) :
    foldList? reference keywords schemas = schemas.map (List.map (fold reference keywords)) := by
  cases schemas with
  | none => rfl
  | some schemas => simp only [foldList?, foldList_eq, Option.map_some]

@[simp] theorem fold_reference (target : String) :
    fold reference keywords (.reference target) = reference target := by
  simp only [fold]

theorem fold_keywords (content : Keywords Schema) :
    fold reference keywords (.keywords content) =
      keywords (content.map (fold reference keywords)) := by
  -- The helpers of the nested recursion are maps, one for each kind of container.
  have items : foldItems reference keywords content.items =
      content.items.map (fold reference keywords) := by
    cases content.items <;> rfl
  have fields : foldFields? reference keywords content.properties = content.properties.map
      (List.map fun property => (property.1, fold reference keywords property.2)) := by
    cases content.properties with
    | none => rfl
    | some properties => simp only [foldFields?, foldFields_eq, Option.map_some]
  have extra : foldExtra reference keywords content.extra =
      content.extra.map (ExtraProperties.map (fold reference keywords)) := by
    cases content.extra with
    | none => rfl
    | some extra => cases extra <;> rfl
  simp only [fold, Keywords.map, items, fields, extra, foldList?_eq]

end Fold

theorem sizeOf_lt_of_mem_getD {α : Type} [SizeOf α] {items : Option (List α)} {item : α}
    (member : item ∈ items.getD []) : sizeOf item < sizeOf items := by
  cases items with
  | none => simp at member
  | some items =>
    have smaller := List.sizeOf_lt_of_mem (Option.getD_some ▸ member)
    rw [Option.some.sizeOf_spec]
    omega

theorem sizeOf_part_lt {content : Keywords Schema} {part : Schema}
    (member : part ∈ content.parts) : sizeOf part < sizeOf content := by
  cases content with
  | mk types properties required items enumeration anyOf oneOf allOf extra constant nullable =>
    -- One case for each keyword that holds parts, in the order of `parts`.
    simp only [Keywords.parts, Keywords.objectParts, List.mem_append, List.mem_map] at member
    rw [Keywords.mk.sizeOf_spec]
    rcases member with ((((⟨property, inside, rfl⟩ | inside) | inside) | inside) | inside) | inside
    · have smaller := sizeOf_lt_of_mem_getD inside
      have pair : sizeOf property.2 < sizeOf property := by
        rw [Prod.mk.sizeOf_spec]
        omega
      omega
    · cases extra with
      | none => simp [Keywords.extraPart] at inside
      | some extra =>
        cases extra with
        | anyValue allowed => simp [Keywords.extraPart] at inside
        | each values =>
          simp only [Keywords.extraPart, List.mem_singleton] at inside
          subst inside
          simp only [Option.some.sizeOf_spec, ExtraProperties.each.sizeOf_spec]
          omega
    · simp only [Option.mem_toList] at inside
      rw [inside, Option.some.sizeOf_spec]
      omega
    all_goals
      have smaller := sizeOf_lt_of_mem_getD inside
      omega

/-- Induction over a schema with the hypothesis for every immediate part. -/
@[elab_as_elim]
theorem induction {motive : Schema → Prop} (reference : ∀ target, motive (.reference target))
    (keywords : ∀ content : Keywords Schema, (∀ part ∈ content.parts, motive part) →
      motive (.keywords content)) : ∀ schema : Schema, motive schema
  | .reference target => reference target
  | .keywords content =>
    keywords content fun part _ => induction reference keywords part
termination_by schema => sizeOf schema
decreasing_by
  have smaller := sizeOf_part_lt (by assumption)
  rw [Schema.keywords.sizeOf_spec]
  omega

end Schema

end TypedClient.OpenApi
