import TypedClient.Page
import TypedClient.TypeScript.TypeExpr

/-!
Named, exported type declarations. Object types are laid out one member a line,
nested ones as blocks of their own.
-/

set_option autoImplicit false

namespace TypedClient.TypeScript

open Text (QuoteStyle)

inductive Body where
  | interface (fields : List Field)
  | alias (type : TypeExpr)
  deriving Repr

structure Declaration where
  name : String
  body : Body
  deriving Repr

mutual

-- An object type with members becomes a block.
def memberItem (quotes : QuoteStyle) (key : String) : TypeExpr → Item
  | .object fields =>
    if fields.isEmpty then .line (key ++ ": \x7b\x7d;")
    else .block (key ++ ":") (fieldItems quotes fields) ";"
  | type => .line (key ++ ": " ++ type.text quotes ++ ";")

def fieldItems (quotes : QuoteStyle) : List Field → List Item
  | [] => []
  | ⟨name, type, optional⟩ :: rest =>
    memberItem quotes (memberKey quotes name optional) type :: fieldItems quotes rest

end

def aliasText (quotes : QuoteStyle) (name : String) (type : TypeExpr) : String :=
  "export type " ++ name ++ " = " ++ type.text quotes ++ ";"

def aliasLine (quotes : QuoteStyle) (name : String) (type : TypeExpr) : Item :=
  .line (aliasText quotes name type)

def Declaration.item (quotes : QuoteStyle) (declaration : Declaration) : Item :=
  match declaration.body with
  | .interface fields =>
    .block ("export interface " ++ declaration.name) (fieldItems quotes fields) ""
  | .alias (.object (field :: fields)) =>
    .block ("export type " ++ declaration.name ++ " =") (fieldItems quotes (field :: fields)) ""
  | .alias type => aliasLine quotes declaration.name type

mutual

def memberSteps (quotes : QuoteStyle) (key : String) : TypeExpr → List Step
  | .object fields =>
    if fields.isEmpty then [.line (key ++ ": \x7b\x7d;")]
    else .openBlock (key ++ ":") :: (fieldSteps quotes fields ++ [.closeBlock ";"])
  | type => [.line (key ++ ": " ++ type.text quotes ++ ";")]

def fieldSteps (quotes : QuoteStyle) : List Field → List Step
  | [] => []
  | ⟨name, type, optional⟩ :: rest =>
    memberSteps quotes (memberKey quotes name optional) type ++ fieldSteps quotes rest

end

def Declaration.steps (quotes : QuoteStyle) (declaration : Declaration) : List Step :=
  match declaration.body with
  | .interface fields =>
    .openBlock ("export interface " ++ declaration.name) ::
      (fieldSteps quotes fields ++ [.closeBlock ""])
  | .alias (.object (field :: fields)) =>
    .openBlock ("export type " ++ declaration.name ++ " =") ::
      (fieldSteps quotes (field :: fields) ++ [.closeBlock ""])
  | .alias type => [.line (aliasText quotes declaration.name type)]

theorem stepsOf_fieldItems (quotes : QuoteStyle) :
    (fields : List Field) → Item.stepsOf (fieldItems quotes fields) = fieldSteps quotes fields
  | [] => rfl
  | ⟨name, type, optional⟩ :: rest => by
    rw [fieldItems, fieldSteps, Item.stepsOf_cons, stepsOf_fieldItems quotes rest]
    cases type with
    | object fields =>
      rw [memberItem, memberSteps]
      split
      · rfl
      · rw [Item.steps_block, stepsOf_fieldItems quotes fields]
    | _ => rfl

@[simp] theorem steps_aliasLine (quotes : QuoteStyle) (name : String) (type : TypeExpr) :
    (aliasLine quotes name type).steps = [.line (aliasText quotes name type)] := rfl

@[simp] theorem Declaration.steps_item (quotes : QuoteStyle) (declaration : Declaration) :
    (declaration.item quotes).steps = declaration.steps quotes := by
  unfold item steps
  split <;> simp [stepsOf_fieldItems]

end TypedClient.TypeScript
