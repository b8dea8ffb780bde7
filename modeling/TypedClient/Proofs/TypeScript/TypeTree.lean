import TypedClient.TypeScript.Declaration

/-! Induction over types, and the declarations that give names their meaning. -/

set_option autoImplicit false

namespace TypedClient.TypeScript

theorem sizeOf_field_lt {field : Field} {fields : List Field} (member : field ∈ fields) :
    sizeOf field.type < sizeOf fields := by
  have smaller := List.sizeOf_lt_of_mem member
  cases field with
  | mk name type optional =>
    rw [Property.mk.sizeOf_spec] at smaller
    change sizeOf type < sizeOf fields
    omega

/-- Induction over a type with the hypothesis for every immediate part. -/
@[elab_as_elim]
theorem TypeExpr.induction {motive : TypeExpr → Prop} (scalar : ∀ kind, motive (.scalar kind))
    (array : ∀ item, motive item → motive (.array item))
    (object : ∀ fields : List Field, (∀ field ∈ fields, motive field.type) → motive (.object fields))
    (reference : ∀ name, motive (.reference name))
    (union : ∀ members, (∀ member ∈ members, motive member) → motive (.union members))
    (intersection : ∀ members, (∀ member ∈ members, motive member) →
      motive (.intersection members))
    (literal : ∀ value, motive (.literal value))
    (record : ∀ values, motive values → motive (.record values))
    (generic : ∀ name arguments, (∀ argument ∈ arguments, motive argument) →
      motive (.generic name arguments)) : ∀ type : TypeExpr, motive type
  | .scalar kind => scalar kind
  | .array item =>
    array item (induction scalar array object reference union intersection literal record generic item)
  | .object fields => object fields fun field _ =>
    induction scalar array object reference union intersection literal record generic field.type
  | .reference name => reference name
  | .union members => union members fun member _ =>
    induction scalar array object reference union intersection literal record generic member
  | .intersection members => intersection members fun member _ =>
    induction scalar array object reference union intersection literal record generic member
  | .literal value => literal value
  | .record values =>
    record values
      (induction scalar array object reference union intersection literal record generic values)
  | .generic name arguments => generic name arguments fun argument _ =>
    induction scalar array object reference union intersection literal record generic argument
termination_by type => sizeOf type
decreasing_by
  · rw [TypeExpr.array.sizeOf_spec]
    omega
  · have smaller := sizeOf_field_lt (by assumption)
    rw [TypeExpr.object.sizeOf_spec]
    omega
  · have smaller := List.sizeOf_lt_of_mem (by assumption)
    rw [TypeExpr.union.sizeOf_spec]
    omega
  · have smaller := List.sizeOf_lt_of_mem (by assumption)
    rw [TypeExpr.intersection.sizeOf_spec]
    omega
  · rw [TypeExpr.record.sizeOf_spec]
    omega
  · have smaller := List.sizeOf_lt_of_mem (by assumption)
    rw [TypeExpr.generic.sizeOf_spec]
    omega

def Body.type : Body → TypeExpr
  | .interface fields => .object fields
  | .alias type => type

namespace TypeExpr

def keep (kept : List TypeExpr) (member : TypeExpr) : List TypeExpr :=
  if kept.any (·.same member) then kept else kept ++ [member]

theorem distinct_eq (members : List TypeExpr) : distinct members = members.foldl keep [] := rfl

theorem foldl_keep_subset (members kept : List TypeExpr) :
    members.foldl keep kept ⊆ kept ++ members := by
  induction members generalizing kept with
  | nil => exact List.subset_append_left _ _
  | cons member rest ih =>
    intro other inside
    have found := ih _ inside
    unfold keep at found
    split at found
    · simp only [List.mem_append, List.mem_cons] at found ⊢
      rcases found with found | found
      · exact .inl found
      · exact .inr (.inr found)
    · simpa [or_assoc] using found

theorem subset_foldl_keep (members kept : List TypeExpr) : kept ⊆ members.foldl keep kept := by
  induction members generalizing kept with
  | nil => exact List.Subset.refl _
  | cons member rest ih =>
    refine List.Subset.trans ?_ (ih _)
    unfold keep
    split
    · exact List.Subset.refl _
    · exact List.subset_append_left _ _

theorem distinct_subset (members : List TypeExpr) : distinct members ⊆ members := by
  simpa [distinct_eq] using foldl_keep_subset members []

/-- Every member is kept, or the same as one that is. -/
theorem exists_distinct_of_mem {members : List TypeExpr} {member : TypeExpr}
    (inside : member ∈ members) :
    ∃ kept ∈ distinct members, kept = member ∨ kept.same member = true := by
  -- What is kept stays, so only the step of this member matters.
  obtain ⟨first, rest, rfl⟩ := List.append_of_mem inside
  rw [distinct_eq, List.foldl_append, List.foldl_cons]
  generalize first.foldl keep [] = before
  have grown := subset_foldl_keep rest (keep before member)
  unfold keep at grown ⊢
  split at grown
  case isTrue found =>
    obtain ⟨kept, listed, same⟩ := List.any_eq_true.mp found
    rw [if_pos found]
    exact ⟨kept, grown listed, .inr same⟩
  case isFalse found =>
    rw [if_neg found]
    exact ⟨member, grown (List.mem_append_right _ List.mem_cons_self), .inl rfl⟩

end TypeExpr

def firstDeclared (declarations : List Declaration) (name : String) : Option Body :=
  (declarations.find? (·.name == name)).map (·.body)

/-- A declaration that shares its name with no other is the first of that name. -/
theorem firstDeclared_eq_of_unique {declarations : List Declaration} {declaration : Declaration}
    (member : declaration ∈ declarations)
    (unique : ∀ other ∈ declarations, other.name = declaration.name → other = declaration) :
    firstDeclared declarations declaration.name = some declaration.body := by
  unfold firstDeclared
  cases found : declarations.find? (·.name == declaration.name) with
  | none =>
    have different := List.find?_eq_none.mp found declaration member
    rw [beq_self_eq_true] at different
    exact absurd rfl different
  | some other =>
    have same := List.find?_some found
    rw [unique other (List.mem_of_find?_eq_some found) (beq_iff_eq.mp same), Option.map_some]

end TypedClient.TypeScript
