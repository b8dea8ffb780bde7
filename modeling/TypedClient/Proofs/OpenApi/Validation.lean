import TypedClient.OpenApi.Reference
import TypedClient.Proofs.Json.Equality
import TypedClient.Proofs.OpenApi.SchemaShape

/-! Which JSON values a schema admits.

A validator answers within a depth, that is a number of schemas inside one another or
behind references. It leaves open what takes more, and what a missing component decides.
-/

set_option autoImplicit false

namespace TypedClient.OpenApi

open Json (Value)

abbrev Verdict := Option Bool

namespace Verdict

def opposite (verdict : Verdict) : Verdict := verdict.map not

def both : Verdict → Verdict → Verdict
  | some true, second => second
  | some false, _ => some false
  | none, some false => some false
  | none, _ => none

def either (first second : Verdict) : Verdict := opposite (both first.opposite second.opposite)

def all (verdicts : List Verdict) : Verdict := verdicts.foldr both (some true)

def any (verdicts : List Verdict) : Verdict := verdicts.foldr either (some false)

def one : List Verdict → Verdict
  | [] => some false
  | first :: rest =>
    either (both first (any rest).opposite) (both first.opposite (one rest))

@[simp] theorem both_eq_true {first second : Verdict} :
    both first second = some true ↔ first = some true ∧ second = some true := by
  rcases first with _ | (_ | _) <;> rcases second with _ | (_ | _) <;> simp [both]

@[simp] theorem either_eq_true {first second : Verdict} :
    either first second = some true ↔ first = some true ∨ second = some true := by
  rcases first with _ | (_ | _) <;> rcases second with _ | (_ | _) <;>
    simp [either, both, opposite]

theorem all_eq_true {verdicts : List Verdict} :
    all verdicts = some true ↔ ∀ verdict ∈ verdicts, verdict = some true := by
  unfold all
  induction verdicts with
  | nil => simp
  | cons first rest ih => simp [ih]

theorem any_eq_true {verdicts : List Verdict} :
    any verdicts = some true ↔ ∃ verdict ∈ verdicts, verdict = some true := by
  unfold any
  induction verdicts with
  | nil => simp
  | cons first rest ih =>
    simp only [List.foldr_cons, either_eq_true, ih, List.mem_cons, exists_eq_or_imp]

theorem exists_of_one {verdicts : List Verdict} (holds : one verdicts = some true) :
    ∃ verdict ∈ verdicts, verdict = some true := by
  induction verdicts with
  | nil => cases holds
  | cons first rest ih =>
    rw [one, either_eq_true, both_eq_true, both_eq_true] at holds
    rcases holds with ⟨first, _⟩ | ⟨_, rest⟩
    · exact ⟨_, List.mem_cons_self, first⟩
    · obtain ⟨verdict, inside, holds⟩ := ih rest
      exact ⟨verdict, List.mem_cons_of_mem _ inside, holds⟩

end Verdict

def hasType : String → Value → Bool
  | "string", .string _ => true
  | "integer", value => value.number?.any (·.den == 1)
  | "number", value => value.number?.isSome
  | "boolean", .bool _ => true
  | "null", .null => true
  | "array", .array _ => true
  | "object", .object _ => true
  | _, _ => false

namespace Keywords

variable {σ : Type} (check : σ → Value → Verdict) (content : Keywords σ)

def ownVerdict (value : Value) : Verdict :=
  some (content.constant.all value.same && content.enumeration.all (·.any value.same) &&
    content.types.all fun types => types.toList.any (hasType · value))

def anyOfVerdict (value : Value) : Verdict :=
  match content.anyOf with
  | none => some true
  | some members => .any (members.map (check · value))

def oneOfVerdict (value : Value) : Verdict :=
  match content.oneOf with
  | none => some true
  | some members => .one (members.map (check · value))

def names (content : Keywords σ) : List String := (content.properties.getD []).map (·.1)

def propertiesVerdict (members : Json.Members) : Verdict :=
  .all ((content.properties.getD []).map fun property =>
    match members.lookup property.1 with
    | some value => check property.2 value
    | none => some true)

def extraVerdict (members : Json.Members) : Verdict :=
  let others := members.filter fun member => !content.names.contains member.1
  match content.extra with
  | none => some true
  | some (.anyValue allowed) => some (allowed || others.isEmpty)
  | some (.each part) => .all (others.map fun member => check part member.2)

def objectVerdict : Value → Verdict
  | .object members =>
    .both (some (content.required.all fun name => (members.lookup name).isSome))
      (.both (content.propertiesVerdict check members) (content.extraVerdict check members))
  | _ => some true

def itemsVerdict : Value → Verdict
  | .array items =>
    match content.items with
    | some part => .all (items.map (check part))
    | none => some true
  | _ => some true

/-- All keywords at once; null passes where it is admitted besides. -/
def verdict (value : Value) : Verdict :=
  if content.nullable && value.same .null then some true
  else .both (content.ownVerdict value)
    (.both (.all ((content.allOf.getD []).map (check · value)))
      (.both (content.anyOfVerdict check value)
        (.both (content.oneOfVerdict check value)
          (.both (content.objectVerdict check value) (content.itemsVerdict check value)))))

end Keywords

namespace Document

variable (document : Document)

def verdict : Nat → Schema → Value → Verdict
  | 0, _, _ => none
  | depth + 1, .reference target, value =>
    match document.schemaAt? target with
    | some schema => verdict depth schema value
    | none => none
  | depth + 1, .keywords content, value => content.verdict (verdict depth) value

def Validates (schema : Schema) (value : Value) : Prop :=
  ∃ depth, document.verdict depth schema value = some true

end Document

end TypedClient.OpenApi
