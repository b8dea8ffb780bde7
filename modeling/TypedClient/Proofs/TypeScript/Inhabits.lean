import TypedClient.Proofs.Json.Equality
import TypedClient.Proofs.TypeScript.Unions

/-! The JSON values of a type.

Types are structural. A name stands for the first declaration of it, and a recursive one
for what is reached in finitely many steps.
-/

set_option autoImplicit false

namespace TypedClient.TypeScript

open Json (Value)

/-- The one value of a literal type. No value is a number that is not finite. -/
def Literal.value? : Literal → Option Value
  | .string text => some (.string text)
  | .integer value => some (.integer value)
  | .number value => some (.float value)
  | .infinity _ => none
  | .notANumber => none
  | .boolean value => some (.bool value)
  | .null => some .null

inductive Inhabits (declarations : List Declaration) : Value → TypeExpr → Prop where
  | unknown {value : Value} : Inhabits declarations value (.scalar .unknown)
  | null : Inhabits declarations .null (.scalar .null)
  | boolean {truth : Bool} : Inhabits declarations (.bool truth) (.scalar .boolean)
  | number {value : Value} {number : Rat} : value.number? = some number →
      Inhabits declarations value (.scalar .number)
  | string {text : String} : Inhabits declarations (.string text) (.scalar .string)
  | literal {value constant : Value} {literal : Literal} : literal.value? = some constant →
      value.same constant = true → Inhabits declarations value (.literal literal)
  | array {items : List Value} {type : TypeExpr} :
      (∀ item ∈ items, Inhabits declarations item type) →
      Inhabits declarations (.array items) (.array type)
  | object {members : List (String × Value)} {fields : List Field} :
      (∀ field ∈ fields, members.lookup field.name = none → field.optional = true) →
      (∀ field ∈ fields, ∀ value, members.lookup field.name = some value →
        Inhabits declarations value field.type) →
      Inhabits declarations (.object members) (.object fields)
  | record {members : List (String × Value)} {type : TypeExpr} :
      (∀ member ∈ members, Inhabits declarations member.2 type) →
      Inhabits declarations (.object members) (.record type)
  | union {value : Value} {type : TypeExpr} {types : List TypeExpr} : type ∈ types →
      Inhabits declarations value type → Inhabits declarations value (.union types)
  | intersection {value : Value} {types : List TypeExpr} :
      (∀ type ∈ types, Inhabits declarations value type) →
      Inhabits declarations value (.intersection types)
  | reference {value : Value} {name : String} {body : Body} :
      firstDeclared declarations name = some body → Inhabits declarations value body.type →
      Inhabits declarations value (.reference name)

theorem Literal.exists_value_of_same {left right : Literal} (same : left.same right = true)
    {value constant : Value} (means : right.value? = some constant)
    (inhabits : value.same constant = true) :
    ∃ other, left.value? = some other ∧ value.same other = true := by
  cases left with
  | number number =>
    cases right with
    | number other =>
      have equal := Decimal.Binary64.toRat_eq_of_sameNumber same
      cases means
      rw [Value.same_iff_of_number rfl] at inhabits
      refine ⟨.float number, rfl, ?_⟩
      rw [Value.same_iff_of_number rfl, inhabits, equal]
    | _ => simp [Literal.same] at same
  | notANumber => cases same
  | _ =>
    have equal := beq_iff_eq.mp same
    rw [equal]
    exact ⟨constant, means, inhabits⟩

/-- Types that are told apart by nothing but the spelling of zero have the same values. -/
theorem Inhabits.of_same {declarations : List Declaration} {value : Value}
    {type other : TypeExpr} (inhabits : Inhabits declarations value type)
    (same : other.same type = true) : Inhabits declarations value other := by
  -- Induction over the derivation: the other type is built alike at every step.
  induction inhabits generalizing other with
  | unknown | null | boolean | string =>
    cases TypeExpr.same_iff.mp same
    constructor
  | number numeric =>
    cases TypeExpr.same_iff.mp same
    exact .number numeric
  | literal means equal =>
    cases TypeExpr.same_iff.mp same with
    | literal same =>
      obtain ⟨_, meansToo, equalToo⟩ := Literal.exists_value_of_same same means equal
      exact .literal meansToo equalToo
  | array _ ih =>
    cases TypeExpr.same_iff.mp same with
    | array same => exact .array fun value member => ih value member same
  | object required _ ih =>
    cases TypeExpr.same_iff.mp same with
    | object pairs =>
      refine .object ?_ ?_
      · intro field listed absent
        obtain ⟨twin, member, agree⟩ := exists_right_of_forall₂ pairs listed
        rw [agree.name] at absent
        rw [agree.optional]
        exact required twin member absent
      · intro field listed value present
        obtain ⟨twin, member, agree⟩ := exists_right_of_forall₂ pairs listed
        rw [agree.name] at present
        exact ih twin member value present agree.type
  | record _ ih =>
    cases TypeExpr.same_iff.mp same with
    | record same => exact .record fun member inside => ih member inside same
  | union member _ ih =>
    cases TypeExpr.same_iff.mp same with
    | union pairs =>
      obtain ⟨twin, listed, same⟩ := exists_left_of_forall₂ pairs member
      exact .union listed (ih same)
  | intersection _ ih =>
    cases TypeExpr.same_iff.mp same with
    | intersection pairs =>
      refine .intersection fun type listed => ?_
      obtain ⟨twin, member, same⟩ := exists_right_of_forall₂ pairs listed
      exact ih twin member same
  | reference declared inner =>
    cases TypeExpr.same_iff.mp same
    exact .reference declared inner

theorem Inhabits.unionOf {declarations : List Declaration} {value : Value} {type : TypeExpr}
    {types : List TypeExpr} (member : type ∈ types) (inhabits : Inhabits declarations value type) :
    Inhabits declarations value (TypeExpr.unionOf types) := by
  obtain ⟨kept, listed, same⟩ := TypeExpr.exists_distinct_of_mem member
  have inhabitsKept : Inhabits declarations value kept := by
    rcases same with rfl | same
    · exact inhabits
    · exact inhabits.of_same same
  unfold TypeExpr.unionOf
  split
  case h_1 none =>
    rw [none] at listed
    cases listed
  case h_2 single =>
    rw [single] at listed
    rw [← List.mem_singleton.mp listed]
    exact inhabitsKept
  case h_3 => exact .union listed inhabitsKept

end TypedClient.TypeScript
