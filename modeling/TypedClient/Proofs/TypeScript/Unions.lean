import TypedClient.Proofs.Lists
import TypedClient.Proofs.TypeScript.TypeTree

/-! Which members a union has.

Types are the same if nothing but the spelling of zero tells them apart. That is transitive, so the
members of a union are the types that none before them is the same as.
-/

set_option autoImplicit false

namespace TypedClient.TypeScript

theorem sameNumber_trans {first second third : Decimal.Binary64} (same : first.sameNumber second = true)
    (equal : second.sameNumber third = true) : first.sameNumber third = true := by
  simp only [Decimal.Binary64.sameNumber, Bool.and_eq_true, Bool.or_eq_true, beq_iff_eq] at same equal ⊢
  grind

theorem Literal.same_cases {first second : Literal} (same : first.same second = true) : first = second ∨
    ∃ left right, first = .number left ∧ second = .number right ∧ left.sameNumber right = true := by
  unfold Literal.same at same
  split at same
  case h_1 left right => exact .inr ⟨left, right, rfl, rfl, same⟩
  case h_2 => cases same
  case h_3 => exact .inl (beq_iff_eq.mp same)

theorem Literal.same_trans {first second third : Literal} (same : first.same second = true)
    (equal : second.same third = true) : first.same third = true := by
  rcases same_cases same with rfl | ⟨left, middle, rfl, rfl, numbers⟩
  · exact equal
  · rcases same_cases equal with rfl | ⟨_, right, ⟨⟩, rfl, numbersToo⟩
    · exact same
    · exact sameNumber_trans numbers numbersToo

structure FieldsAgree (left right : Field) : Prop where
  name : left.name = right.name
  optional : left.optional = right.optional
  type : left.type.same right.type = true

namespace TypeExpr

theorem sameList_iff {lefts rights : List TypeExpr} : sameList lefts rights = true ↔
    List.Forall₂ (fun left right => left.same right = true) lefts rights := by
  induction lefts generalizing rights with
  | nil => cases rights <;> simp [sameList]
  | cons left lefts ih => cases rights <;> simp [sameList, ih]

theorem sameFields_iff {lefts rights : List Field} : sameFields lefts rights = true ↔
    List.Forall₂ FieldsAgree lefts rights := by
  induction lefts generalizing rights with
  | nil => cases rights <;> simp [sameFields]
  | cons left lefts ih =>
    cases rights with
    | nil => simp [sameFields]
    | cons right rights =>
      simp only [sameFields, Bool.and_eq_true, beq_iff_eq, List.forall₂_cons, ih]
      refine and_congr_left fun _ => ?_
      exact ⟨fun ⟨⟨name, optional⟩, type⟩ => ⟨name, optional, type⟩,
        fun agree => ⟨⟨agree.name, agree.optional⟩, agree.type⟩⟩

/-- Types that are the same are built alike, and so are their parts. -/
inductive Agree : TypeExpr → TypeExpr → Prop where
  | scalar (kind : Scalar) : Agree (.scalar kind) (.scalar kind)
  | array {left right : TypeExpr} : left.same right = true → Agree (.array left) (.array right)
  | object {lefts rights : List Field} : List.Forall₂ FieldsAgree lefts rights →
      Agree (.object lefts) (.object rights)
  | reference (name : String) : Agree (.reference name) (.reference name)
  | union {lefts rights : List TypeExpr} :
      List.Forall₂ (fun left right => left.same right = true) lefts rights →
      Agree (.union lefts) (.union rights)
  | intersection {lefts rights : List TypeExpr} :
      List.Forall₂ (fun left right => left.same right = true) lefts rights →
      Agree (.intersection lefts) (.intersection rights)
  | literal {left right : Literal} : left.same right = true →
      Agree (.literal left) (.literal right)
  | record {left right : TypeExpr} : left.same right = true → Agree (.record left) (.record right)
  | generic (name : String) {lefts rights : List TypeExpr} :
      List.Forall₂ (fun left right => left.same right = true) lefts rights →
      Agree (.generic name lefts) (.generic name rights)

theorem same_iff {left right : TypeExpr} : left.same right = true ↔ Agree left right := by
  constructor
  · intro same
    cases left <;> cases right <;> simp only [TypeExpr.same, Bool.false_eq_true] at same
    case scalar.scalar => exact beq_iff_eq.mp same ▸ .scalar _
    case array.array => exact .array same
    case object.object => exact .object (sameFields_iff.mp same)
    case reference.reference => exact beq_iff_eq.mp same ▸ .reference _
    case union.union => exact .union (sameList_iff.mp same)
    case intersection.intersection => exact .intersection (sameList_iff.mp same)
    case literal.literal => exact .literal same
    case record.record => exact .record same
    case generic.generic =>
      rw [Bool.and_eq_true, beq_iff_eq] at same
      exact same.1 ▸ .generic _ (sameList_iff.mp same.2)
  · intro agree
    cases agree with
    | scalar | reference => simp [TypeExpr.same]
    | array same | literal same | record same => exact same
    | object pairs => exact sameFields_iff.mpr pairs
    | union pairs | intersection pairs => exact sameList_iff.mpr pairs
    | generic name pairs =>
      rw [TypeExpr.same, Bool.and_eq_true]
      exact ⟨beq_self_eq_true name, sameList_iff.mpr pairs⟩

/-- Being the same goes from one type over a second to a third. -/
theorem same_trans {first : TypeExpr} : ∀ second third, first.same second = true →
    second.same third = true → first.same third = true := by
  -- The first type decides the form of the others, and its parts are compared in the same way.
  induction first using TypeExpr.induction with
  | scalar kind | reference name =>
    intro second third same equal
    cases same_iff.mp same
    exact equal
  | literal value =>
    intro second third same equal
    match second, third, same_iff.mp same, same_iff.mp equal with
    | _, _, .literal same, .literal equal => exact Literal.same_trans same equal
  | array item ih =>
    intro second third same equal
    match second, third, same_iff.mp same, same_iff.mp equal with
    | _, _, .array same, .array equal => exact ih _ _ same equal
  | record values ih =>
    intro second third same equal
    match second, third, same_iff.mp same, same_iff.mp equal with
    | _, _, .record same, .record equal => exact ih _ _ same equal
  | object fields ih =>
    intro second third same equal
    match second, third, same_iff.mp same, same_iff.mp equal with
    | _, _, .object pairs, .object others =>
      refine same_iff.mpr (.object (trans_of_forall₂ ?_ pairs others))
      exact fun field listed _ _ first next => ⟨first.name.trans next.name,
        first.optional.trans next.optional, ih field listed _ _ first.type next.type⟩
  | union members ih =>
    intro second third same equal
    match second, third, same_iff.mp same, same_iff.mp equal with
    | _, _, .union pairs, .union others =>
      exact same_iff.mpr (.union (trans_of_forall₂ ih pairs others))
  | intersection members ih =>
    intro second third same equal
    match second, third, same_iff.mp same, same_iff.mp equal with
    | _, _, .intersection pairs, .intersection others =>
      exact same_iff.mpr (.intersection (trans_of_forall₂ ih pairs others))
  | generic name arguments ih =>
    intro second third same equal
    match second, third, same_iff.mp same, same_iff.mp equal with
    | _, _, .generic _ pairs, .generic _ others =>
      exact same_iff.mpr (.generic name (trans_of_forall₂ ih pairs others))

theorem distinct_eq_leading (members : List TypeExpr) : distinct members = leading TypeExpr.same members :=
  foldl_keep_eq_leading (fun _ second third => same_trans second third) members

def collapsed : List TypeExpr → TypeExpr
  | [member] => member
  | members => .union members

theorem unionOf_eq_collapsed {members : List TypeExpr} (nonempty : members ≠ []) :
    unionOf members = collapsed (leading TypeExpr.same members) := by
  have kept : leading TypeExpr.same members ≠ [] := leading_ne_nil nonempty
  rw [unionOf, distinct_eq_leading]
  -- There is a first member, so no union of nothing is to be told from a single one.
  generalize leading TypeExpr.same members = leaders at kept
  match leaders with
  | [] => exact absurd rfl kept
  | [_] => rfl
  | _ :: _ :: _ => rfl

end TypeExpr

end TypedClient.TypeScript
