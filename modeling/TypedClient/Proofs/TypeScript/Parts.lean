import TypedClient.Proofs.TypeScript.Mentions
import TypedClient.Proofs.TypeScript.TypeText
import TypedClient.Proofs.TypeScript.Unions

/-! The parts of a type, and which of them have a text.

The text of most types is there whatever their parts are. It depends on the parts when a union or an
intersection has fewer than two of them, and an intersection of none has no text at all.
-/

set_option autoImplicit false

namespace TypedClient.TypeScript

open Text (QuoteStyle)

inductive TypeExpr.OccursIn (part : TypeExpr) : TypeExpr → Prop where
  | self : OccursIn part part
  | item {item : TypeExpr} : OccursIn part item → OccursIn part (.array item)
  | field {field : Field} {fields : List Field} :
      field ∈ fields → OccursIn part field.type → OccursIn part (.object fields)
  | alternative {member : TypeExpr} {members : List TypeExpr} :
      member ∈ members → OccursIn part member → OccursIn part (.union members)
  | operand {member : TypeExpr} {members : List TypeExpr} :
      member ∈ members → OccursIn part member → OccursIn part (.intersection members)
  | values {values : TypeExpr} : OccursIn part values → OccursIn part (.record values)
  | argument {name : String} {type : TypeExpr} {arguments : List TypeExpr} :
      type ∈ arguments → OccursIn part type → OccursIn part (.generic name arguments)

/-- An object type without members, or a union or an intersection of fewer than two types. -/
inductive TypeExpr.Degenerate : TypeExpr → Prop where
  | object : Degenerate (.object [])
  | union {members : List TypeExpr} : members.length < 2 → Degenerate (.union members)
  | intersection {members : List TypeExpr} :
      members.length < 2 → Degenerate (.intersection members)

inductive TypeExpr.Solid : TypeExpr → Prop where
  | scalar {kind : Scalar} : Solid (.scalar kind)
  | literal {value : Literal} : Solid (.literal value)
  | array {item : TypeExpr} : Solid (.array item)
  | record {values : TypeExpr} : Solid (.record values)
  | object {field : Field} {fields : List Field} : Solid (.object (field :: fields))
  | union {first second : TypeExpr} {rest : List TypeExpr} : Solid (.union (first :: second :: rest))
  | intersection {first second : TypeExpr} {rest : List TypeExpr} :
      Solid (.intersection (first :: second :: rest))

theorem Lexes.ne_nil {text : List Char} {first : Lexeme} {lexemes : List Lexeme}
    (lexes : Lexes text (first :: lexemes)) : text ≠ [] := by
  rintro rfl
  have cut := lexes [] rfl
  simp [Lexing.run?, Lexing.finish?] at cut

namespace TypeExpr

variable {part type left right : TypeExpr} {members : List TypeExpr}

theorem Solid.not_degenerate (solid : type.Solid) : ¬type.Degenerate := by
  intro degenerate
  cases solid <;> cases degenerate
  case union few =>
    simp only [List.length_cons] at few
    omega
  case intersection few =>
    simp only [List.length_cons] at few
    omega

theorem Solid.text_ne (solid : type.Solid) (quotes : QuoteStyle) : type.text quotes ≠ "" := by
  rw [Ne, ← String.toList_eq_nil_iff]
  cases solid with
  | @scalar kind => cases kind <;> simp [text, Scalar.text]
  | @literal value =>
    cases value with
    | infinity negative => cases negative <;> simp [text, Literal.text]
    | notANumber => simp [text, Literal.text]
    | _ => exact Lexes.ne_nil (Literal.lexes quotes rfl)
  | array => simp [text]
  | record => simp [text]
  | object => simp [text]
  | union => simp [text, Text.join]
  | intersection => simp [text, Text.join]

section Union

/-- The members of a union occur in it, and what makes it up is solid. -/
theorem OccursIn.of_unionOf (occurs : part.OccursIn (unionOf members)) :
    (∃ member ∈ members, part.OccursIn member) ∨ part.Solid := by
  have subset := distinct_subset members
  unfold unionOf at occurs
  split at occurs
  case h_1 =>
    cases occurs
    exact .inr .scalar
  case h_2 member single =>
    rw [single] at subset
    exact .inl ⟨member, subset List.mem_cons_self, occurs⟩
  case h_3 several none other =>
    cases occurs with
    | self =>
      rcases found : distinct members with _ | ⟨first, _ | ⟨second, rest⟩⟩
      · exact absurd found none
      · exact absurd found (other first)
      · exact .inr .union
    | alternative inside occurs => exact .inl ⟨_, subset inside, occurs⟩

/-- Types that count as one have the empty intersection in common. -/
theorem occursIn_of_same (same : left.same right = true)
    (occurs : (TypeExpr.intersection []).OccursIn right) :
    (TypeExpr.intersection []).OccursIn left := by
  -- The other type is built alike on the whole way down to the part.
  induction occurs generalizing left with
  | self =>
    cases same_iff.mp same with
    | intersection pairs =>
      cases pairs
      exact .self
  | item _ ih =>
    cases same_iff.mp same with
    | array same => exact .item (ih same)
  | field inside _ ih =>
    cases same_iff.mp same with
    | object pairs =>
      obtain ⟨other, member, agree⟩ := exists_left_of_forall₂ pairs inside
      exact .field member (ih agree.type)
  | alternative inside _ ih =>
    cases same_iff.mp same with
    | union pairs =>
      obtain ⟨other, member, equal⟩ := exists_left_of_forall₂ pairs inside
      exact .alternative member (ih equal)
  | operand inside _ ih =>
    cases same_iff.mp same with
    | intersection pairs =>
      obtain ⟨other, member, equal⟩ := exists_left_of_forall₂ pairs inside
      exact .operand member (ih equal)
  | values _ ih =>
    cases same_iff.mp same with
    | record same => exact .values (ih same)
  | argument inside _ ih =>
    cases same_iff.mp same with
    | generic name pairs =>
      obtain ⟨other, member, equal⟩ := exists_left_of_forall₂ pairs inside
      exact .argument member (ih equal)

/-- A member may give way to another that counts as the same. -/
theorem occursIn_unionOf {member : TypeExpr} (inside : member ∈ members)
    (occurs : (TypeExpr.intersection []).OccursIn member) :
    (TypeExpr.intersection []).OccursIn (unionOf members) := by
  have kept : ∃ kept ∈ distinct members, (TypeExpr.intersection []).OccursIn kept := by
    obtain ⟨kept, listed, rfl | same⟩ := exists_distinct_of_mem inside
    · exact ⟨kept, listed, occurs⟩
    · exact ⟨kept, listed, occursIn_of_same same occurs⟩
  obtain ⟨kept, listed, occurs⟩ := kept
  unfold unionOf
  split
  case h_1 none =>
    rw [none] at listed
    cases listed
  case h_2 single =>
    rw [single, List.mem_singleton] at listed
    rwa [← listed]
  case h_3 => exact .alternative listed occurs

end Union

section Mentions
variable {name : String}

inductive Names (name : String) : TypeExpr → Prop where
  | reference : Names name (.reference name)
  | generic {arguments : List TypeExpr} : Names name (.generic name arguments)

theorem Names.not_solid (names : part.Names name) : ¬part.Solid := by
  intro solid
  cases names <;> cases solid

theorem exists_names_of_mentions (mentions : type.Mentions name) :
    ∃ part : TypeExpr, part.Names name ∧ part.OccursIn type := by
  induction mentions with
  | reference => exact ⟨_, .reference, .self⟩
  | generic => exact ⟨_, .generic, .self⟩
  | argument inside _ ih =>
    obtain ⟨part, names, occurs⟩ := ih
    exact ⟨part, names, .argument inside occurs⟩
  | item _ ih =>
    obtain ⟨part, names, occurs⟩ := ih
    exact ⟨part, names, .item occurs⟩
  | field inside _ ih =>
    obtain ⟨part, names, occurs⟩ := ih
    exact ⟨part, names, .field inside occurs⟩
  | alternative inside _ ih =>
    obtain ⟨part, names, occurs⟩ := ih
    exact ⟨part, names, .alternative inside occurs⟩
  | part inside _ ih =>
    obtain ⟨part, names, occurs⟩ := ih
    exact ⟨part, names, .operand inside occurs⟩
  | values _ ih =>
    obtain ⟨part, names, occurs⟩ := ih
    exact ⟨part, names, .values occurs⟩

theorem mentions_of_occursIn (names : part.Names name) (occurs : part.OccursIn type) :
    type.Mentions name := by
  induction occurs with
  | self => cases names <;> constructor
  | item _ ih => exact .item ih
  | field inside _ ih => exact .field inside ih
  | alternative inside _ ih => exact .alternative inside ih
  | operand inside _ ih => exact .part inside ih
  | values _ ih => exact .values ih
  | argument inside _ ih => exact .argument inside ih

theorem Mentions.of_unionOf (mentions : (unionOf members).Mentions name) :
    ∃ member ∈ members, member.Mentions name := by
  obtain ⟨part, names, occurs⟩ := exists_names_of_mentions mentions
  rcases occurs.of_unionOf with ⟨member, inside, occurs⟩ | solid
  · exact ⟨member, inside, mentions_of_occursIn names occurs⟩
  · exact absurd solid names.not_solid

end Mentions

end TypeExpr

end TypedClient.TypeScript
