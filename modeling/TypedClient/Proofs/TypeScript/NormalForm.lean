import TypedClient.Proofs.TypeScript.TypeReader
import TypedClient.Proofs.TypeScript.TypeTree

/-! What a type is, however it is put together.

A normal form has no union among the members of a union, no intersection among those of an
intersection, and neither around a single member. Arrays and records are the generic types of
those names, the literal and the scalar `null` are one, and number literals are numbers.
-/

set_option autoImplicit false

namespace TypedClient.TypeScript

open Decimal (Binary64)

def Literal.normal : Literal → TypeSyntax
  | .string value => .text value
  | .integer value => .number (nearest? (value < 0) value.natAbs 1)
  | .number value => .number (some (if value.isZero then Binary64.zero false else value))
  | .infinity _ => .number none
  | .notANumber => .number none
  | .boolean value => .boolean value
  | .null => .keyword .null

def Literal.isFinite : Literal → Bool
  | .infinity _ => false
  | .notANumber => false
  | _ => true

mutual

def TypeExpr.normal : TypeExpr → TypeSyntax
  | .scalar kind => .keyword kind
  | .array item => .named "Array" [item.normal]
  | .object fields => .object (TypeExpr.normalFields fields)
  | .reference name => .named name []
  | .union members => .anyOf (TypeExpr.normals members)
  | .intersection members => .allOf (TypeExpr.normals members)
  | .literal value => value.normal
  | .record values => .named "Record" [.keyword .string, values.normal]
  | .generic name arguments => .named name (TypeExpr.normals arguments)

def TypeExpr.normals : List TypeExpr → List TypeSyntax
  | [] => []
  | type :: rest => type.normal :: TypeExpr.normals rest

def TypeExpr.normalFields : List Field → List (Property TypeSyntax)
  | [] => []
  | ⟨name, type, optional⟩ :: rest => ⟨name, type.normal, optional⟩ :: TypeExpr.normalFields rest

end

@[simp] theorem TypeExpr.normals_eq_map (types : List TypeExpr) :
    normals types = types.map normal := by
  induction types with
  | nil => rfl
  | cons type rest ih => rw [normals, ih, List.map_cons]

@[simp] theorem TypeExpr.normalFields_eq_map (fields : List Field) :
    normalFields fields =
      fields.map fun field => ⟨field.name, field.type.normal, field.optional⟩ := by
  induction fields with
  | nil => rfl
  | cons field rest ih =>
    obtain ⟨name, type, optional⟩ := field
    rw [normalFields, ih, List.map_cons]

/-- A name that is read as one: an identifier, and no word that is a type of its own. -/
def isTypeName (name : String) : Bool :=
  Text.isIdentifier name && (TypeSyntax.keyword? name).isNone

/-- Types with a text of their own: unions and intersections have members, generic types have
arguments, names are read as names, and numbers are finite. -/
inductive TypeExpr.Plain : TypeExpr → Prop where
  | scalar (kind : Scalar) : Plain (.scalar kind)
  | literal {value : Literal} : value.isFinite = true → Plain (.literal value)
  | array {item : TypeExpr} : Plain item → Plain (.array item)
  | record {values : TypeExpr} : Plain values → Plain (.record values)
  | object {fields : List Field} : (∀ field ∈ fields, Plain field.type) → Plain (.object fields)
  | reference {name : String} : isTypeName name = true → Plain (.reference name)
  | union {members : List TypeExpr} : members ≠ [] → (∀ member ∈ members, Plain member) →
      Plain (.union members)
  | intersection {members : List TypeExpr} : members ≠ [] → (∀ member ∈ members, Plain member) →
      Plain (.intersection members)
  | generic {name : String} {arguments : List TypeExpr} : isTypeName name = true → arguments ≠ [] →
      (∀ argument ∈ arguments, Plain argument) → Plain (.generic name arguments)

namespace TypeSyntax

def isUnion : TypeSyntax → Bool
  | union _ => true
  | _ => false

def isIntersection : TypeSyntax → Bool
  | intersection _ => true
  | _ => false

/-- No union is a member of a union, no intersection of an intersection, and neither has a single
member. -/
inductive Flat : TypeSyntax → Prop where
  | other {type : TypeSyntax} : type.isUnion = false → type.isIntersection = false → Flat type
  | union {members : List TypeSyntax} : members.length ≠ 1 → (∀ member ∈ members, Flat member) →
      (∀ member ∈ members, member.isUnion = false) → Flat (.union members)
  | intersection {members : List TypeSyntax} : members.length ≠ 1 →
      (∀ member ∈ members, Flat member) → (∀ member ∈ members, member.isIntersection = false) →
      Flat (.intersection members)

section Flat
variable {type : TypeSyntax} {types : List TypeSyntax}

theorem alternatives_of_not_union (other : type.isUnion = false) : type.alternatives = [type] := by
  cases type <;> first | rfl | cases other

theorem parts_of_not_intersection (other : type.isIntersection = false) : type.parts = [type] := by
  cases type <;> first | rfl | cases other

theorem anyOf_of_ne_one (several : (types.flatMap alternatives).length ≠ 1) :
    anyOf types = union (types.flatMap alternatives) := by
  unfold anyOf
  split
  case h_1 single => rw [single] at several; exact absurd rfl several
  case h_2 => rfl

theorem allOf_of_ne_one (several : (types.flatMap parts).length ≠ 1) :
    allOf types = intersection (types.flatMap parts) := by
  unfold allOf
  split
  case h_1 single => rw [single] at several; exact absurd rfl several
  case h_2 => rfl

theorem Flat.of_alternative {member : TypeSyntax} (flat : type.Flat)
    (inside : member ∈ type.alternatives) : member.Flat ∧ member.isUnion = false := by
  cases flat with
  | other union intersection =>
    rw [alternatives_of_not_union union, List.mem_singleton] at inside
    rw [inside]
    exact ⟨.other union intersection, union⟩
  | union _ flat others => exact ⟨flat member inside, others member inside⟩
  | intersection several flat others =>
    rw [List.mem_singleton.mp inside]
    exact ⟨.intersection several flat others, rfl⟩

theorem Flat.of_part {member : TypeSyntax} (flat : type.Flat) (inside : member ∈ type.parts) :
    member.Flat ∧ member.isIntersection = false := by
  cases flat with
  | other union intersection =>
    rw [parts_of_not_intersection intersection, List.mem_singleton] at inside
    rw [inside]
    exact ⟨.other union intersection, intersection⟩
  | union several flat others =>
    rw [List.mem_singleton.mp inside]
    exact ⟨.union several flat others, rfl⟩
  | intersection _ flat others => exact ⟨flat member inside, others member inside⟩

theorem Flat.anyOf_singleton (flat : type.Flat) : anyOf [type] = type := by
  cases flat with
  | other union intersection => simp [anyOf, alternatives_of_not_union union]
  | @union members several flat others =>
    have same : [TypeSyntax.union members].flatMap alternatives = members := by simp [alternatives]
    rw [anyOf_of_ne_one (same.symm ▸ several), same]
  | intersection several flat others => rfl

theorem Flat.allOf_singleton (flat : type.Flat) : allOf [type] = type := by
  cases flat with
  | other union intersection => simp [allOf, parts_of_not_intersection intersection]
  | union several flat others => rfl
  | @intersection members several flat others =>
    have same : [TypeSyntax.intersection members].flatMap parts = members := by simp [parts]
    rw [allOf_of_ne_one (same.symm ▸ several), same]

theorem Flat.anyOf (flat : ∀ type ∈ types, type.Flat) :
    (anyOf types).Flat ∧ (TypeSyntax.anyOf types).alternatives = types.flatMap alternatives := by
  have members : ∀ member ∈ types.flatMap alternatives, member.Flat ∧ member.isUnion = false := by
    intro member inside
    obtain ⟨type, listed, inside⟩ := List.mem_flatMap.mp inside
    exact (flat type listed).of_alternative inside
  by_cases several : (types.flatMap alternatives).length = 1
  · obtain ⟨type, single⟩ := List.length_eq_one_iff.mp several
    rw [single] at members
    obtain ⟨flat, other⟩ := members type List.mem_cons_self
    simp only [TypeSyntax.anyOf, single]
    exact ⟨flat, alternatives_of_not_union other⟩
  · rw [anyOf_of_ne_one several]
    exact ⟨.union several (fun member inside => (members member inside).1)
      fun member inside => (members member inside).2, rfl⟩

theorem Flat.allOf (flat : ∀ type ∈ types, type.Flat) :
    (allOf types).Flat ∧ (TypeSyntax.allOf types).parts = types.flatMap parts := by
  have members : ∀ member ∈ types.flatMap parts, member.Flat ∧ member.isIntersection = false := by
    intro member inside
    obtain ⟨type, listed, inside⟩ := List.mem_flatMap.mp inside
    exact (flat type listed).of_part inside
  by_cases several : (types.flatMap parts).length = 1
  · obtain ⟨type, single⟩ := List.length_eq_one_iff.mp several
    rw [single] at members
    obtain ⟨flat, other⟩ := members type List.mem_cons_self
    simp only [TypeSyntax.allOf, single]
    exact ⟨flat, parts_of_not_intersection other⟩
  · rw [allOf_of_ne_one several]
    exact ⟨.intersection several (fun member inside => (members member inside).1)
      fun member inside => (members member inside).2, rfl⟩

end Flat

end TypeSyntax

theorem TypeExpr.flat_normal (type : TypeExpr) : type.normal.Flat := by
  induction type using TypeExpr.induction with
  | union members ih =>
    rw [normal, normals_eq_map]
    exact (TypeSyntax.Flat.anyOf (by simpa using ih)).1
  | intersection members ih =>
    rw [normal, normals_eq_map]
    exact (TypeSyntax.Flat.allOf (by simpa using ih)).1
  | literal value => cases value <;> exact .other rfl rfl
  | _ => exact .other rfl rfl

end TypedClient.TypeScript
