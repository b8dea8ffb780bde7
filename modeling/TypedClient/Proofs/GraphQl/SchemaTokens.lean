import TypedClient.Proofs.GraphQl.Pages
import TypedClient.Proofs.GraphQl.Readers

/-! The tokens of a printed schema.

They depend on what descriptions are read as, those of types and those of members, whose lines are
indented differently.
-/

set_option autoImplicit false

namespace TypedClient.GraphQl

open Definitions

structure Meaning where
  typeText : String → String
  memberText : String → String

section Defaults

/-- The tokens of a default value, which stands in the second line of a block at the earliest. -/
def sourceTokens (text : String) : List Token := lexAll (reindent 2 text.toList)

def sourceValue (text : String) : Value :=
  match constant (sourceTokens text) with
  | some (value, _) => value
  | none => .null

structure IsConstant (text : String) : Prop where
  spelled : Spelled 2 text.toList (sourceTokens text)
  reads : Reads anywhere constant (sourceTokens text) (sourceValue text)

variable {text : String} {tokens : List Token} {value : Value}

theorem sourceTokens_eq (spelled : Spelled 2 text.toList tokens) : sourceTokens text = tokens := by
  have lexes := spelled.lexes [] rfl
  rwa [List.append_nil, show lexAll [] = [] from rfl, List.append_nil] at lexes

theorem sourceValue_eq (spelled : Spelled 2 text.toList tokens)
    (reads : Reads anywhere constant tokens value) : sourceValue text = value := by
  have read := reads [] rfl
  rw [List.append_nil] at read
  rw [sourceValue, sourceTokens_eq spelled, read]

theorem isConstant_of_spelled (spelled : Spelled 2 text.toList tokens)
    (reads : Reads anywhere constant tokens value) : IsConstant text := by
  constructor
  · rwa [sourceTokens_eq spelled]
  · rwa [sourceTokens_eq spelled, sourceValue_eq spelled reads]

end Defaults

section Tokens

def TypeRef.tokens : TypeRef → List Token
  | leaf _ name => [.name (name.getD "")]
  | wrapper .nonNull _ inner => inner.tokens ++ [.mark '!']
  | wrapper .list _ inner => .mark '[' :: (inner.tokens ++ [.mark ']'])
  | wrapper _ name _ => [.name (name.getD "")]

def TypeRef.isForced : TypeRef → Bool
  | wrapper .nonNull _ _ => true
  | _ => false

/-- The printed names are names, and no two exclamation marks follow each other. -/
inductive TypeRef.Proper : TypeRef → Prop where
  | leaf {kind : TypeKind} {name : String} : isName name = true → Proper (.leaf kind (some name))
  | other {kind : TypeKind} {name : String} {inner : TypeRef} : isName name = true →
      kind ≠ .list → kind ≠ .nonNull → Proper (.wrapper kind (some name) inner)
  | list {name : Option String} {inner : TypeRef} : Proper inner → Proper (.wrapper .list name inner)
  | nonNull {name : Option String} {inner : TypeRef} : Proper inner → inner.isForced = false →
      Proper (.wrapper .nonNull name inner)

def describedTokens (read : String → String) : Option String → List Token
  | none => []
  | some text => if text.isEmpty then [] else [.text (read text)]

def deprecationTokens (deprecated : Bool) (reason : Option String) : List Token :=
  if !deprecated then []
  else match reason with
    | none => [.mark '@', .name "deprecated"]
    | some text =>
      if text = standardReason then [.mark '@', .name "deprecated"]
      else [.mark '@', .name "deprecated", .mark '(', .name "reason", .mark ':', .text text, .mark ')']

def defaultTokens : Option String → List Token
  | none => []
  | some text => .mark '=' :: sourceTokens text

def InputValue.tokens (input : InputValue) : List Token :=
  .name input.name :: .mark ':' :: (input.type.tokens ++ defaultTokens input.default)

def argumentTokens (arguments : List InputValue) : List Token :=
  if arguments.isEmpty then [] else .mark '(' :: (arguments.flatMap InputValue.tokens ++ [.mark ')'])

variable (meaning : Meaning)

def InputValue.memberTokens (input : InputValue) : List Token :=
  describedTokens meaning.memberText input.description ++ input.tokens

def Field.tokens (field : Field) : List Token :=
  describedTokens meaning.memberText field.description ++
    .name field.name :: (argumentTokens field.arguments ++
      .mark ':' :: (field.type.tokens ++ deprecationTokens field.deprecated field.reason))

def EnumValue.tokens (value : EnumValue) : List Token :=
  describedTokens meaning.memberText value.description ++
    .name value.name :: deprecationTokens value.deprecated value.reason

def nameTokens (type : TypeRef) : List Token := [.name type.name]

def implementsTokens (interfaces : List TypeRef) : List Token :=
  if interfaces.isEmpty then [] else .name "implements" :: separatedTokens '&' nameTokens interfaces

def bracedTokens {α : Type} (tokensOf : α → List Token) (items : List α) : List Token :=
  .mark '\x7b' :: (items.flatMap tokensOf ++ [.mark '\x7d'])

def NamedType.bodyTokens (type : NamedType) : List Token :=
  let withFields (keyword : String) : List Token :=
    .name keyword :: .name type.name :: (implementsTokens (type.interfaces.getD []) ++
      bracedTokens (Field.tokens meaning) (type.fields.getD []))
  match type.kind with
  | .scalar => [.name "scalar", .name type.name]
  | .object => withFields "type"
  | .interface => withFields "interface"
  | .union =>
    .name "union" :: .name type.name :: .mark '=' ::
      separatedTokens '|' nameTokens (type.possibleTypes.getD [])
  | .enumeration =>
    .name "enum" :: .name type.name ::
      bracedTokens (EnumValue.tokens meaning) (type.enumValues.getD [])
  | .inputObject =>
    .name "input" :: .name type.name ::
      bracedTokens (InputValue.memberTokens meaning) (type.inputFields.getD [])
  | .list => []
  | .nonNull => []

def NamedType.tokens (type : NamedType) : List Token :=
  describedTokens meaning.typeText type.description ++ type.bodyTokens meaning

def Schema.printedTypes (schema : Schema) : List NamedType :=
  schema.userTypes.filter fun type => !type.isBuiltin

def Schema.presentRoots (schema : Schema) : List (String × String) :=
  schema.roots.filterMap fun (operation, root, _) => root.map fun name => (operation, name)

def rootTokens (root : String × String) : List Token := [.name root.1, .mark ':', .name root.2]

def Schema.tokens (schema : Schema) : List Token :=
  (if schema.hasUnusualRoot then .name "schema" :: bracedTokens rootTokens schema.presentRoots else []) ++
    schema.printedTypes.flatMap (NamedType.tokens meaning)

end Tokens

structure Texts where
  ofType : String → Prop
  ofMember : String → Prop

section Formed

structure InputValue.Formed (input : InputValue) : Prop where
  name : isName input.name = true
  type : input.type.Proper
  default : ∀ text ∈ input.default, IsConstant text

variable (texts : Texts)

structure Field.Formed (field : Field) : Prop where
  name : isName field.name = true
  description : ∀ text ∈ field.description, text ≠ "" → texts.ofMember text
  arguments : ∀ argument ∈ field.arguments, argument.Formed
  type : field.type.Proper

structure EnumValue.Formed (value : EnumValue) : Prop where
  name : isName value.name = true
  description : ∀ text ∈ value.description, text ≠ "" → texts.ofMember text

/-- What a type of its kind consists of. Unions have members, and of the kinds without a definition
not even a description is printed. -/
def NamedType.BodyFormed (type : NamedType) : Prop :=
  match type.kind with
  | .scalar => True
  | .object | .interface =>
    (∀ interface ∈ type.interfaces.getD [], isName interface.name = true) ∧
      ∀ field ∈ type.fields.getD [], field.Formed texts
  | .union =>
    type.possibleTypes.getD [] ≠ [] ∧
      ∀ member ∈ type.possibleTypes.getD [], isName member.name = true
  | .enumeration => ∀ value ∈ type.enumValues.getD [], value.Formed texts
  | .inputObject =>
    ∀ field ∈ type.inputFields.getD [], field.Formed ∧
      ∀ text ∈ field.description, text ≠ "" → texts.ofMember text
  | .list | .nonNull => ∀ text ∈ type.description, text = ""

structure NamedType.Formed (type : NamedType) : Prop where
  name : isName type.name = true
  description : ∀ text ∈ type.description, text ≠ "" → texts.ofType text
  body : type.BodyFormed texts

structure Schema.Formed (schema : Schema) : Prop where
  roots : ∀ root ∈ schema.presentRoots, isName root.2 = true
  types : ∀ type ∈ schema.printedTypes, type.Formed texts

end Formed

def Meaning.texts (meaning : Meaning) : Texts where
  ofType text := Prints 0 (descriptionItems (some text)) [.text (meaning.typeText text)]
  ofMember text := Prints 1 (descriptionItems (some text)) [.text (meaning.memberText text)]

section Spelling
variable {meaning : Meaning} {indent : Nat}

theorem TypeRef.text_other {kind : TypeKind} (name : Option String) (inner : TypeRef)
    (noList : kind ≠ .list) (noForce : kind ≠ .nonNull) :
    (wrapper kind name inner).text = name.getD "" := by
  rw [TypeRef.text]
  · exact noForce
  · exact noList

theorem TypeRef.tokens_other {kind : TypeKind} (name : Option String) (inner : TypeRef)
    (noList : kind ≠ .list) (noForce : kind ≠ .nonNull) :
    (wrapper kind name inner).tokens = [.name (name.getD "")] := by
  rw [TypeRef.tokens]
  · exact noForce
  · exact noList

theorem TypeRef.Proper.spelled {type : TypeRef} (proper : type.Proper) :
    Spelled indent type.text.toList type.tokens := by
  induction proper with
  | leaf legal => exact .name legal
  | other legal noList noForce =>
    rw [text_other _ _ noList noForce, tokens_other _ _ noList noForce]
    exact .name legal
  | @list name inner _ ih =>
    rw [TypeRef.text, TypeRef.tokens, String.toList_append, String.toList_append, List.append_assoc]
    exact .mark rfl (ih.append (.mark rfl .nil) rfl)
  | @nonNull name inner _ _ ih =>
    rw [TypeRef.text, TypeRef.tokens, String.toList_append]
    exact ih.append (.mark rfl .nil) rfl

theorem spelled_deprecation (indent : Nat) (deprecated : Bool) (reason : Option String) :
    Spelled indent (deprecationText deprecated reason).toList (deprecationTokens deprecated reason) ∧
      stops (deprecationText deprecated reason).toList = true := by
  have word : Spelled indent "deprecated".toList [.name "deprecated"] :=
    @Spelled.name indent "deprecated" (by decide)
  have bare : Spelled indent " @deprecated".toList [.mark '@', .name "deprecated"] :=
    .blank rfl (by decide) (.mark rfl word)
  have argument : Spelled indent "reason".toList [.name "reason"] :=
    @Spelled.name indent "reason" (by decide)
  unfold deprecationText deprecationTokens
  cases deprecated with
  | false => exact ⟨.nil, rfl⟩
  | true =>
    cases reason with
    | none => exact ⟨bare, rfl⟩
    | some text =>
      by_cases standard : text = standardReason
      · simpa [standard] using ⟨bare, rfl⟩
      · have literal := (Spelled.textLiteral indent text).append (.mark (c := ')') rfl .nil) rfl
        have reasoned := word.append (.mark (c := '(') rfl
          (argument.append (.mark (c := ':') rfl (.blank (c := ' ') rfl (by decide) literal)) rfl)) rfl
        have whole := Spelled.blank (c := ' ') rfl (by decide) (.mark (c := '@') rfl reasoned)
        refine ⟨by simpa [standard] using whole, ?_⟩
        simp only [standard, Bool.not_true, Bool.false_eq_true, if_false, String.toList_append,
          List.append_assoc]
        rfl

theorem separatedTokens_cons_cons {ι : Type} (separator : Char) (tokensOf : ι → List Token)
    (first second : ι) (rest : List ι) :
    separatedTokens separator tokensOf (first :: second :: rest) =
      tokensOf first ++ .mark separator :: separatedTokens separator tokensOf (second :: rest) := by
  simp [separatedTokens]

/-- Names with a mark between blanks between them. -/
theorem spelled_names (separator : Char) (isMark : Definitions.isAnyMark separator = true)
    {types : List TypeRef} (legal : ∀ type ∈ types, isName type.name = true) :
    Spelled indent (Text.join (String.ofList [' ', separator, ' ']) (types.map TypeRef.name)).toList
      (separatedTokens separator nameTokens types) := by
  induction types with
  | nil => exact .nil
  | cons type types ih =>
    obtain ⟨first, others⟩ := List.forall_mem_cons.mp legal
    cases types with
    | nil => simpa [separatedTokens, nameTokens] using Spelled.name first
    | cons next types =>
      rw [List.map_cons, List.map_cons, Text.join_cons_cons, String.toList_append,
        String.toList_append, String.toList_ofList, List.append_assoc, separatedTokens_cons_cons]
      exact (Spelled.name first).append (.blank rfl (by decide) (.mark isMark
        (.blank rfl (by decide) (ih others)))) rfl

theorem InputValue.Formed.spelled {input : InputValue} (formed : input.Formed) :
    Spelled 2 input.text.toList input.tokens := by
  have default : Spelled 2 (match input.default with
      | none => ""
      | some default => " = " ++ default).toList (defaultTokens input.default) ∧
      stops (match input.default with
      | none => ""
      | some default => " = " ++ default).toList = true := by
    cases given : input.default with
    | none => exact ⟨.nil, rfl⟩
    | some text =>
      simp only [String.toList_append]
      refine ⟨?_, rfl⟩
      exact .blank rfl (by decide) (.mark rfl (.blank rfl (by decide) (formed.default text given).spelled))
  rw [InputValue.text, String.toList_append, String.toList_append, String.toList_append,
    List.append_assoc, List.append_assoc]
  exact (Spelled.name formed.name).append
    (.mark rfl (.blank rfl (by decide) (formed.type.spelled.append default.1 default.2))) rfl

theorem spelled_arguments {arguments : List InputValue}
    (formed : ∀ argument ∈ arguments, argument.Formed) :
    Spelled 2 (argumentsText arguments).toList (argumentTokens arguments) ∧
      ∀ rest, stops rest = true → stops ((argumentsText arguments).toList ++ rest) = true := by
  unfold argumentsText argumentTokens
  split_ifs
  · exact ⟨.nil, fun _ stopped => stopped⟩
  · rw [String.toList_append, String.toList_append, List.append_assoc]
    have inside := Spelled.join fun argument member => (formed argument member).spelled
    exact ⟨.mark rfl (inside.append (.mark rfl .nil) rfl), fun _ _ => rfl⟩

theorem prints_described {depth : Nat} {read : String → String} {description : Option String}
    (known : ∀ text ∈ description, text ≠ "" →
      Prints depth (descriptionItems (some text)) [.text (read text)]) :
    Prints depth (descriptionItems description) (describedTokens read description) := by
  cases description with
  | none => exact .nil
  | some text =>
    by_cases empty : text = ""
    · simpa [descriptionItems, describedTokens, empty] using Prints.nil
    · simpa [describedTokens, empty] using known text rfl empty

theorem Field.Formed.prints {field : Field} (formed : field.Formed meaning.texts) :
    Prints 1 field.items (field.tokens meaning) := by
  obtain ⟨arguments, apart⟩ := spelled_arguments formed.arguments
  obtain ⟨deprecation, apart'⟩ := spelled_deprecation 2 field.deprecated field.reason
  refine (prints_described formed.description).append (.line ?_)
  simp only [Field.text, String.toList_append, List.append_assoc]
  exact (Spelled.name formed.name).append (arguments.append (.mark rfl (.blank rfl (by decide)
    (formed.type.spelled.append deprecation apart'))) rfl) (apart _ rfl)

theorem EnumValue.Formed.prints {value : EnumValue} (formed : value.Formed meaning.texts) :
    Prints 1 value.items (value.tokens meaning) := by
  obtain ⟨deprecation, apart⟩ := spelled_deprecation 2 value.deprecated value.reason
  refine (prints_described formed.description).append (.line ?_)
  rw [EnumValue.text, String.toList_append]
  exact (Spelled.name formed.name).append deprecation apart

theorem InputValue.Formed.prints {input : InputValue} (formed : input.Formed)
    (described : ∀ text ∈ input.description, text ≠ "" → meaning.texts.ofMember text) :
    Prints 1 input.items (input.memberTokens meaning) :=
  (prints_described described).append (.line formed.spelled)

end Spelling

section Types
variable {meaning : Meaning}

/-- A keyword with a blank behind it, and the name of a type. -/
theorem spelled_header {keyword lead name : String} (known : isName keyword = true)
    (spaced : lead.toList = keyword.toList ++ [' ']) (legal : isName name = true) :
    Spelled 0 (lead ++ name).toList [.name keyword, .name name] := by
  rw [String.toList_append, spaced, List.append_assoc]
  exact (Spelled.name known).append (.blank rfl (by decide) (Spelled.name legal)) rfl

theorem prints_block {ι : Type} {keyword lead name : String} {items : List ι}
    {itemsOf : ι → List Item} {tokensOf : ι → List Token} (known : isName keyword = true)
    (spaced : lead.toList = keyword.toList ++ [' ']) (legal : isName name = true)
    (each : ∀ item ∈ items, Prints 1 (itemsOf item) (tokensOf item)) :
    Prints 0 [.block (lead ++ name) (items.flatMap itemsOf) ""]
      (.name keyword :: .name name :: bracedTokens tokensOf items) :=
  .block (spelled_header known spaced legal) (.flatMap each)

theorem spelled_implements {interfaces : List TypeRef}
    (legal : ∀ interface ∈ interfaces, isName interface.name = true) :
    Spelled 0 (implementsText interfaces).toList (implementsTokens interfaces) ∧
      stops (implementsText interfaces).toList = true := by
  unfold implementsText implementsTokens
  split_ifs
  · exact ⟨.nil, rfl⟩
  · simp only [String.toList_append]
    have word : isName "implements" = true := by decide
    exact ⟨.blank rfl (by decide) ((Spelled.name word).append
      (.blank rfl (by decide) (spelled_names '&' rfl legal)) rfl), rfl⟩

theorem prints_fields {keyword name : String} {interfaces : List TypeRef} {fields : List Field}
    (known : isName keyword = true) (legal : isName name = true)
    (named : ∀ interface ∈ interfaces, isName interface.name = true)
    (formed : ∀ field ∈ fields, field.Formed meaning.texts) :
    Prints 0 [.block (keyword ++ " " ++ name ++ implementsText interfaces)
        (fields.flatMap Field.items) ""]
      (.name keyword :: .name name ::
        (implementsTokens interfaces ++ bracedTokens (Field.tokens meaning) fields)) := by
  obtain ⟨spelled, apart⟩ := spelled_implements named
  have spaced : (keyword ++ " ").toList = keyword.toList ++ [' '] := String.toList_append
  have header := (spelled_header known spaced legal).append spelled apart
  rw [← String.toList_append] at header
  exact .block header (.flatMap fun field member => (formed field member).prints)

theorem prints_union {name : String} {members : List TypeRef} (legal : isName name = true)
    (named : ∀ member ∈ members, isName member.name = true) :
    Prints 0 [.line ("union " ++ name ++ " = " ++ Text.join " | " (members.map TypeRef.name))]
      (.name "union" :: .name name :: .mark '=' :: separatedTokens '|' nameTokens members) := by
  have known : isName "union" = true := by decide
  have header := @spelled_header "union" "union " name known rfl legal
  have listed := @spelled_names 0 '|' rfl members named
  have equals : " = ".toList = [' ', '=', ' '] := rfl
  refine .line ?_
  rw [String.toList_append, String.toList_append, List.append_assoc, equals]
  exact header.append (.blank rfl (by decide) (.mark rfl (.blank rfl (by decide) listed))) rfl

theorem NamedType.Formed.prints {type : NamedType} (formed : type.Formed meaning.texts) :
    Prints 0 type.items (type.tokens meaning) := by
  refine Prints.blank.append ((prints_described formed.description).append ?_)
  have body := formed.body
  unfold NamedType.BodyFormed at body
  unfold NamedType.bodyItems NamedType.bodyTokens
  cases kind : type.kind with
  | scalar =>
    have known : isName "scalar" = true := by decide
    exact .line (spelled_header known rfl formed.name)
  | object =>
    rw [kind] at body
    have known : isName "type" = true := by decide
    exact prints_fields known formed.name body.1 body.2
  | interface =>
    rw [kind] at body
    have known : isName "interface" = true := by decide
    exact prints_fields known formed.name body.1 body.2
  | union =>
    rw [kind] at body
    exact prints_union formed.name body.2
  | enumeration =>
    rw [kind] at body
    have known : isName "enum" = true := by decide
    exact prints_block known rfl formed.name fun value member => (body value member).prints
  | inputObject =>
    rw [kind] at body
    have known : isName "input" = true := by decide
    exact prints_block known rfl formed.name fun field member =>
      (body field member).1.prints (body field member).2
  | list => exact .nil
  | nonNull => exact .nil

theorem legal_operation {schema : Schema} {root : String × String}
    (member : root ∈ schema.presentRoots) : isName root.1 = true := by
  obtain ⟨⟨operation, name, usual⟩, listed, present⟩ := List.mem_filterMap.mp member
  obtain ⟨name, -, rfl⟩ := Option.map_eq_some_iff.mp present
  have operations : ∀ root ∈ schema.roots, isName root.1 = true := by
    simp only [Schema.roots, List.forall_mem_cons]
    decide
  exact operations _ listed

theorem prints_schema {schema : Schema} (formed : schema.Formed meaning.texts) :
    Prints 0 schema.items (schema.tokens meaning) := by
  refine .append ?_ (.flatMap fun type member => (formed.types type member).prints)
  split_ifs
  · have word : isName "schema" = true := by decide
    have roots : Prints 1 schema.rootItems (schema.presentRoots.flatMap rootTokens) := by
      have items : schema.rootItems = schema.presentRoots.flatMap fun root =>
          [.line (root.1 ++ ": " ++ root.2)] := by
        rw [← List.map_eq_flatMap, Schema.presentRoots, List.map_filterMap]
        simp only [Option.map_map]
        rfl
      rw [items]
      refine .flatMap fun root member => .line ?_
      rw [String.toList_append, String.toList_append, List.append_assoc]
      exact (Spelled.name (legal_operation member)).append
        (.mark rfl (.blank rfl (by decide) (Spelled.name (formed.roots root member)))) rfl
    exact .block (.name word) roots
  · exact .nil

/-- The tokens of the text of a schema. -/
theorem lexAll_definitions {schema : Schema} (formed : schema.Formed meaning.texts) :
    lexAll schema.definitions.toList = schema.tokens meaning := by
  rw [Schema.definitions_eq_render]
  exact Definitions.lexAll_render (prints_schema formed)

end Types

section Meanings
variable {texts others : Texts}

theorem Schema.Formed.mono {schema : Schema} (formed : schema.Formed texts)
    (ofType : ∀ text ≠ "", texts.ofType text → others.ofType text)
    (ofMember : ∀ text ≠ "", texts.ofMember text → others.ofMember text) :
    schema.Formed others := by
  refine ⟨formed.roots, fun type member => ?_⟩
  obtain ⟨name, description, body⟩ := formed.types type member
  refine ⟨name, fun text given nonempty => ofType text nonempty (description text given nonempty), ?_⟩
  unfold NamedType.BodyFormed at body ⊢
  have fields (each : ∀ field ∈ type.fields.getD [], field.Formed texts) :
      ∀ field ∈ type.fields.getD [], field.Formed others := by
    intro field member
    obtain ⟨name, description, arguments, type⟩ := each field member
    exact ⟨name, fun text given nonempty => ofMember text nonempty (description text given nonempty),
      arguments, type⟩
  cases kind : type.kind with
  | object =>
    rw [kind] at body
    exact ⟨body.1, fields body.2⟩
  | interface =>
    rw [kind] at body
    exact ⟨body.1, fields body.2⟩
  | enumeration =>
    rw [kind] at body
    intro value member
    obtain ⟨name, description⟩ := body value member
    exact ⟨name, fun text given nonempty => ofMember text nonempty (description text given nonempty)⟩
  | inputObject =>
    rw [kind] at body
    intro field member
    obtain ⟨formed, description⟩ := body field member
    exact ⟨formed, fun text given nonempty => ofMember text nonempty (description text given nonempty)⟩
  | _ =>
    rw [kind] at body
    exact body

/-- Names are names, unions have members and default values are constants. Descriptions may be
anything. -/
def Schema.Spellable (schema : Schema) : Prop := schema.Formed ⟨fun _ => True, fun _ => True⟩

theorem exists_reading (depth : Nat) : ∃ read : String → String, ∀ text ≠ "",
    Prints depth (descriptionItems (some text)) [.text (read text)] := by
  have each : ∀ text : String, ∃ value, text ≠ "" →
      Prints depth (descriptionItems (some text)) [.text value] := by
    intro text
    by_cases empty : text = ""
    · exact ⟨"", fun nonempty => absurd empty nonempty⟩
    · obtain ⟨value, prints⟩ := exists_prints_description depth empty
      exact ⟨value, fun _ => prints⟩
  choose read prints using each
  exact ⟨read, prints⟩

theorem Schema.Spellable.exists_meaning {schema : Schema} (spellable : schema.Spellable) :
    ∃ meaning : Meaning, schema.Formed meaning.texts := by
  obtain ⟨typeText, ofType⟩ := exists_reading 0
  obtain ⟨memberText, ofMember⟩ := exists_reading 1
  exact ⟨⟨typeText, memberText⟩,
    spellable.mono (fun text nonempty _ => ofType text nonempty) fun text nonempty _ => ofMember text nonempty⟩

end Meanings

end TypedClient.GraphQl
