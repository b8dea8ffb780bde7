import TypedClient.Proofs.TypeScript.TypeTree

/-! The names that types mention. -/

set_option autoImplicit false

namespace TypedClient.TypeScript

inductive TypeExpr.Mentions : TypeExpr → String → Prop where
  | reference {name : String} : Mentions (.reference name) name
  | generic {name : String} {arguments : List TypeExpr} : Mentions (.generic name arguments) name
  | argument {type : TypeExpr} {arguments : List TypeExpr} {head name : String} :
      type ∈ arguments → Mentions type name → Mentions (.generic head arguments) name
  | item {item : TypeExpr} {name : String} : Mentions item name → Mentions (.array item) name
  | field {field : Field} {fields : List Field} {name : String} :
      field ∈ fields → Mentions field.type name → Mentions (.object fields) name
  | alternative {member : TypeExpr} {members : List TypeExpr} {name : String} :
      member ∈ members → Mentions member name → Mentions (.union members) name
  | part {member : TypeExpr} {members : List TypeExpr} {name : String} :
      member ∈ members → Mentions member name → Mentions (.intersection members) name
  | values {values : TypeExpr} {name : String} : Mentions values name → Mentions (.record values) name

def Declaration.Mentions (declaration : Declaration) (name : String) : Prop :=
  match declaration.body with
  | .interface fields => (TypeExpr.object fields).Mentions name
  | .alias type => type.Mentions name

namespace TypeExpr

theorem Mentions.of_reference {name other : String}
    (mentions : (TypeExpr.reference other).Mentions name) : name = other := by
  cases mentions
  rfl

theorem Mentions.of_intersection_pair {first second : TypeExpr} {name : String}
    (mentions : (TypeExpr.intersection [first, second]).Mentions name) :
    first.Mentions name ∨ second.Mentions name := by
  cases mentions with
  | part inside mentions =>
    rcases List.mem_cons.mp inside with rfl | inside
    · exact .inl mentions
    · rw [List.mem_singleton.mp inside] at mentions
      exact .inr mentions

end TypeExpr

end TypedClient.TypeScript
