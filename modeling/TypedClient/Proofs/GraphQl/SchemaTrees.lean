import TypedClient.GraphQl.Definitions.Printer
import TypedClient.Proofs.Text.Pages

/-! The tree that the log of a schema's definitions writes. -/

set_option autoImplicit false

namespace TypedClient.GraphQl

def descriptionItems (description : Option String) : List Item :=
  match description with
  | none => []
  | some text =>
    if text.isEmpty then []
    else if text.toList.contains '\n' then
      [.line blockMark, .line (String.ofList (escapeBlock text.toList)), .line blockMark]
    else [.line (textLiteral text)]

def Field.items (field : Field) : List Item :=
  descriptionItems field.description ++ [.line field.text]

def EnumValue.items (value : EnumValue) : List Item :=
  descriptionItems value.description ++ [.line value.text]

def InputValue.items (value : InputValue) : List Item :=
  descriptionItems value.description ++ [.line value.text]

def NamedType.bodyItems (type : NamedType) : List Item :=
  let withFields (keyword : String) : List Item :=
    [.block (keyword ++ " " ++ type.name ++ implementsText (type.interfaces.getD []))
      ((type.fields.getD []).flatMap Field.items) ""]
  match type.kind with
  | .scalar => [.line ("scalar " ++ type.name)]
  | .object => withFields "type"
  | .interface => withFields "interface"
  | .union =>
    [.line ("union " ++ type.name ++ " = " ++
      Text.join " | " ((type.possibleTypes.getD []).map TypeRef.name))]
  | .enumeration =>
    [.block ("enum " ++ type.name) ((type.enumValues.getD []).flatMap EnumValue.items) ""]
  | .inputObject =>
    [.block ("input " ++ type.name) ((type.inputFields.getD []).flatMap InputValue.items) ""]
  | .list => []
  | .nonNull => []

def NamedType.items (type : NamedType) : List Item :=
  .blank :: descriptionItems type.description ++ type.bodyItems

namespace Schema

def rootItems (schema : Schema) : List Item :=
  schema.roots.filterMap fun (operation, root, _) =>
    root.map fun name => .line (operation ++ ": " ++ name)

def items (schema : Schema) : List Item :=
  (if schema.hasUnusualRoot then [.block "schema" schema.rootItems ""] else []) ++
    (schema.userTypes.filter fun type => !type.isBuiltin).flatMap NamedType.items

end Schema

@[simp] theorem stepsOf_descriptionItems (description : Option String) :
    Item.stepsOf (descriptionItems description) = descriptionSteps description := by
  unfold descriptionItems descriptionSteps
  cases description with
  | none => rfl
  | some text => dsimp only; split_ifs <;> rfl

@[simp] theorem Field.stepsOf_items (field : Field) : Item.stepsOf field.items = field.steps := by
  simp [items, steps, Item.stepsOf_append]

@[simp] theorem EnumValue.stepsOf_items (value : EnumValue) :
    Item.stepsOf value.items = value.steps := by
  simp [items, steps, Item.stepsOf_append]

@[simp] theorem InputValue.stepsOf_items (value : InputValue) :
    Item.stepsOf value.items = value.steps := by
  simp [items, steps, Item.stepsOf_append]

@[simp] theorem NamedType.stepsOf_items (type : NamedType) : Item.stepsOf type.items = type.steps := by
  have body : Item.stepsOf type.bodyItems = type.bodySteps := by
    unfold bodyItems bodySteps
    cases type.kind <;> simp
  simp [items, steps, Item.stepsOf_append, body]

namespace Schema

@[simp] theorem stepsOf_rootItems (schema : Schema) :
    Item.stepsOf schema.rootItems = schema.rootSteps := by
  unfold rootItems rootSteps roots
  cases schema.queryType <;> cases schema.mutationType <;> cases schema.subscriptionType <;> rfl

theorem stepsOf_items (schema : Schema) : Item.stepsOf schema.items = schema.steps := by
  unfold items steps
  cases schema.hasUnusualRoot <;> simp

theorem definitions_eq_render (schema : Schema) :
    schema.definitions = Item.render Style.standard schema.items := by
  rw [definitions, Item.render, stepsOf_items]

end Schema

end TypedClient.GraphQl
