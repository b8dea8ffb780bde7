import TypedClient.Proofs.GraphQl.Grammar
import TypedClient.Proofs.GraphQl.Resolving

/-! The roots of a schema that was printed and read again.

A schema block is printed only if a root has another name than usual, and it does not say which roots
are absent.
-/

set_option autoImplicit false

namespace TypedClient.GraphQl

open Definitions

section Rereading
variable {schema again : Schema}

theorem schemaOf_outline {meaning : Meaning} :
    schemaOf (schema.outline meaning) = .ok again ↔
      ∃ types, (schema.typeOutlines meaning).mapM
          (kindsOf ((schema.typeOutlines meaning).map .type)).namedType = .ok types ∧
        again = resolved (if schema.hasUnusualRoot then schema.rootNames else RootNames.none) types := by
  refine schemaOf_types ?_ fun kinds => ?_
  · split_ifs <;> rfl
  · split_ifs <;> rfl

/-- A printed text that is accepted has the printed types, resolved among themselves. -/
theorem exists_types_of_accepted {meaning : Meaning} (formed : schema.Formed meaning.texts)
    (accepted : Schema.ofDefinitions schema.definitions = .ok again) :
    ∃ types, (schema.typeOutlines meaning).mapM
        (kindsOf ((schema.typeOutlines meaning).map .type)).namedType = .ok types ∧
      again = resolved (if schema.hasUnusualRoot then schema.rootNames else RootNames.none) types := by
  unfold Schema.ofDefinitions at accepted
  rw [read?_definitions formed] at accepted
  split_ifs at accepted
  exact schemaOf_outline.mp accepted

/-- What a root is read as: its name in the schema block, or else its usual name if there is a type
of that name. -/
def Schema.rootAgain (schema : Schema) (root : Option String) (usual : String) : Option String :=
  rootName? schema.declaredTypes (if schema.hasUnusualRoot then root else none) usual

/-- The root is written down, or it is the one that is found by its usual name. -/
def Schema.Keeps (schema : Schema) (root : Option String) (usual : String) : Prop :=
  match root with
  | some _ => schema.hasUnusualRoot = true ∨ ∃ type ∈ schema.declaredTypes, type.name = usual
  | none => ∀ type ∈ schema.declaredTypes, type.name ≠ usual

theorem Schema.rootAgain_eq_iff {operation : String} {root : Option String} {usual : String}
    (listed : (operation, root, usual) ∈ schema.roots) :
    schema.rootAgain root usual = root ↔ schema.Keeps root usual := by
  have found : (schema.declaredTypes.any (·.name == usual) = true) ↔
      ∃ type ∈ schema.declaredTypes, type.name = usual := by
    simp
  unfold Schema.rootAgain Schema.Keeps rootName?
  cases root with
  | none =>
    simp only [ite_self]
    split_ifs with usualType
    · simpa using found.mp usualType
    · simpa using usualType
  | some name =>
    cases unusual : schema.hasUnusualRoot with
    | true => simp
    | false =>
      have same : name = usual := by
        have all := List.any_eq_false.mp unusual _ listed
        simpa using all
      simp only [Bool.false_eq_true, if_false, false_or, same, ← found]
      split_ifs <;> simp [*]

/-- The roots of a schema with types of these names. -/
theorem roots_resolved {types : List NamedType}
    (names : types.map NamedType.name = schema.declaredTypes.map NamedType.name)
    (result : again = resolved (if schema.hasUnusualRoot then schema.rootNames else RootNames.none) types) :
    (again.roots = schema.roots.map fun (operation, root, usual) =>
        (operation, schema.rootAgain root usual, usual)) ∧
      (again.roots = schema.roots ↔
        ∀ operation root usual, (operation, root, usual) ∈ schema.roots → schema.Keeps root usual) := by
  have each : ∀ explicit usual, usual ∉ builtinScalars →
      rootName? (types ++ impliedScalars types) explicit usual =
        rootName? schema.declaredTypes explicit usual :=
    fun explicit usual ordinary => (rootName?_append ordinary).trans (rootName?_congr (.of_eq names))
  have roots : again.roots =
      schema.roots.map fun (operation, root, usual) => (operation, schema.rootAgain root usual, usual) := by
    rw [result]
    unfold Schema.roots resolved Schema.rootAgain
    simp only [List.map_cons, List.map_nil, each _ "Query" (by decide), each _ "Mutation" (by decide),
      each _ "Subscription" (by decide)]
    cases schema.hasUnusualRoot <;> rfl
  have same := List.map_inj_left (l := schema.roots) (g := id)
    (f := fun (operation, root, usual) => (operation, schema.rootAgain root usual, usual))
  rw [List.map_id] at same
  refine ⟨roots, ?_⟩
  rw [roots, same]
  constructor
  · intro kept operation root usual listed
    have equal := kept _ listed
    exact (Schema.rootAgain_eq_iff listed).mp (by simpa using equal)
  · rintro keeps ⟨operation, root, usual⟩ listed
    have equal := (Schema.rootAgain_eq_iff listed).mpr (keeps operation root usual listed)
    simpa using equal

theorem roots_ofDefinitions (spellable : schema.Spellable)
    (accepted : Schema.ofDefinitions schema.definitions = .ok again) :
    (again.roots = schema.roots.map fun (operation, root, usual) =>
        (operation, schema.rootAgain root usual, usual)) ∧
      (again.roots = schema.roots ↔
        ∀ operation root usual, (operation, root, usual) ∈ schema.roots → schema.Keeps root usual) := by
  obtain ⟨meaning, formed⟩ := spellable.exists_meaning
  obtain ⟨types, found, result⟩ := exists_types_of_accepted formed accepted
  exact roots_resolved ((names_of_namedTypes found).trans (names_typeOutlines meaning)) result

end Rereading

section Absent

def absentMutation : Schema where
  queryType := some "Query"
  mutationType := none
  subscriptionType := none
  types := ["Query", "Mutation"].map fun name =>
    { NamedType.bare .object name none with
      fields := some [⟨"done", none, [], .leaf .scalar (some "Boolean"), false, none⟩] }

theorem absentMutation_spellable : absentMutation.Spellable := by
  have boolean : isName "Boolean" = true := by decide
  have types : absentMutation.printedTypes = absentMutation.types := by decide
  refine ⟨by decide, ?_⟩
  rw [types]
  intro type member
  obtain ⟨name, listed, rfl⟩ := List.mem_map.mp member
  have legal : ∀ name ∈ ["Query", "Mutation"], isName name = true := by decide
  refine ⟨legal name listed, by simp [NamedType.bare], by simp [NamedType.bare], fun field member => ?_⟩
  obtain rfl : field = ⟨"done", none, [], .leaf .scalar (some "Boolean"), false, none⟩ := by
    simpa [NamedType.bare] using member
  exact ⟨by decide, by simp, by simp, .leaf boolean⟩

theorem absentMutation_accepted :
    ∃ again, Schema.ofDefinitions absentMutation.definitions = .ok again := by
  have accepted : (Schema.ofDefinitions absentMutation.definitions).isOk = true := by decide +kernel
  cases found : Schema.ofDefinitions absentMutation.definitions with
  | ok again => exact ⟨again, rfl⟩
  | error fault =>
    rw [found] at accepted
    cases accepted

theorem absentMutation_roots : ∃ again,
    Schema.ofDefinitions absentMutation.definitions = .ok again ∧
      again.roots = [("query", some "Query", "Query"), ("mutation", some "Mutation", "Mutation"),
        ("subscription", none, "Subscription")] := by
  obtain ⟨again, accepted⟩ := absentMutation_accepted
  refine ⟨again, accepted, ?_⟩
  rw [(roots_ofDefinitions absentMutation_spellable accepted).1]
  decide

theorem roots_not_kept : ¬ ∀ schema again : Schema,
    Schema.ofDefinitions schema.definitions = .ok again → again.roots = schema.roots := by
  intro same
  have other : (Schema.ofDefinitions absentMutation.definitions).toOption.map Schema.roots ≠
      some absentMutation.roots := by decide +kernel
  obtain ⟨again, accepted⟩ := absentMutation_accepted
  rw [accepted] at other
  exact other (congrArg some (same _ _ accepted))

end Absent

end TypedClient.GraphQl
