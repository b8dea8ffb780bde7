import TypedClient.Proofs.GraphQl.SchemaTokens

/-! Brackets in a printed schema. Around a type or a default value in it there are at most two. -/

set_option autoImplicit false

namespace TypedClient.GraphQl

open Definitions

section Shallow

/-- The type and the default value fit into so many levels of brackets. -/
structure InputValue.Shallow (room : Nat) (input : InputValue) : Prop where
  type : Balanced room input.type.tokens
  default : ∀ text ∈ input.default, Balanced room (sourceTokens text)

structure Field.Shallow (field : Field) : Prop where
  type : Balanced 49 field.type.tokens
  arguments : ∀ argument ∈ field.arguments, argument.Shallow 48

structure NamedType.Shallow (type : NamedType) : Prop where
  fields : ∀ field ∈ type.fields.getD [], field.Shallow
  inputFields : ∀ input ∈ type.inputFields.getD [], input.Shallow 49

end Shallow

section Balance
variable {meaning : Meaning} {room : Nat}

theorem balanced_name {name : String} (legal : isName name = true) {tokens : List Token}
    (balanced : Balanced room tokens) : Balanced room (.name name :: tokens) :=
  .literal (by simp) (name_ne_noToken legal) balanced

theorem balanced_described (read : String → String) (description : Option String) :
    Balanced room (describedTokens read description) := by
  cases description with
  | none => exact .nil
  | some text =>
    simp only [describedTokens]
    split_ifs
    · exact .nil
    · exact .literal (by simp) (by simp [noToken]) .nil

theorem balanced_deprecation (deprecated : Bool) (reason : Option String) :
    Balanced (room + 1) (deprecationTokens deprecated reason) := by
  have word : isName "deprecated" = true := by decide
  have argument : isName "reason" = true := by decide
  have bare : Balanced (room + 1) [.mark '@', .name "deprecated"] :=
    .mark rfl rfl (balanced_name word .nil)
  cases deprecated with
  | false => exact .nil
  | true =>
    cases reason with
    | none => exact bare
    | some text =>
      simp only [deprecationTokens, Bool.not_true, Bool.false_eq_true, if_false]
      split_ifs
      · exact bare
      · have reasoned : Balanced room [.name "reason", .mark ':', .text text] :=
          balanced_name argument (.mark rfl rfl (.literal (by simp) (by simp [noToken]) .nil))
        have enclosed : Balanced (room + 1)
            (.mark '(' :: ([.name "reason", .mark ':', .text text] ++ [.mark ')'])) :=
          .brackets rfl rfl rfl reasoned
        exact .mark rfl rfl (balanced_name word enclosed)

theorem InputValue.Shallow.balanced {input : InputValue} (shallow : input.Shallow room)
    (legal : isName input.name = true) : Balanced room input.tokens := by
  refine balanced_name legal (.mark rfl rfl (shallow.type.append ?_))
  cases given : input.default with
  | none => exact .nil
  | some text => exact .mark rfl rfl (shallow.default text given)

theorem balanced_braced {ι : Type} {items : List ι} {tokensOf : ι → List Token}
    (each : ∀ item ∈ items, Balanced room (tokensOf item)) :
    Balanced (room + 1) (bracedTokens tokensOf items) :=
  .brackets rfl rfl rfl (.flatMap each)

theorem balanced_separated {separator : Char} (other : isOpening separator = false)
    (another : isClosing separator = false) {types : List TypeRef}
    (legal : ∀ type ∈ types, isName type.name = true) :
    Balanced room (separatedTokens separator nameTokens types) := by
  cases types with
  | nil => exact .nil
  | cons type types =>
    obtain ⟨first, others⟩ := List.forall_mem_cons.mp legal
    exact balanced_name first (.flatMap fun type member =>
      .mark other another (balanced_name (others type member) .nil))

theorem Field.Shallow.balanced {field : Field} (shallow : field.Shallow)
    (formed : field.Formed meaning.texts) : Balanced 49 (field.tokens meaning) := by
  have arguments : Balanced 49 (argumentTokens field.arguments) := by
    unfold argumentTokens
    split_ifs
    · exact .nil
    · exact .brackets rfl rfl rfl (.flatMap fun argument member =>
        (shallow.arguments argument member).balanced (formed.arguments argument member).name)
  exact (balanced_described _ _).append (balanced_name formed.name (arguments.append
    (.mark rfl rfl (shallow.type.append (balanced_deprecation _ _)))))

theorem EnumValue.Formed.balanced {value : EnumValue} (formed : value.Formed meaning.texts) :
    Balanced (room + 1) (value.tokens meaning) :=
  (balanced_described _ _).append (balanced_name formed.name (balanced_deprecation _ _))

theorem NamedType.Shallow.balanced {type : NamedType} (shallow : type.Shallow)
    (formed : type.Formed meaning.texts) : Balanced 50 (type.tokens meaning) := by
  have body := formed.body
  unfold NamedType.BodyFormed at body
  -- Object types and interfaces differ in their keyword only.
  have withFields {keyword : String} (known : isName keyword = true)
      (named : ∀ interface ∈ type.interfaces.getD [], isName interface.name = true)
      (fields : ∀ field ∈ type.fields.getD [], field.Formed meaning.texts) :
      Balanced 50 (.name keyword :: .name type.name :: (implementsTokens (type.interfaces.getD []) ++
        bracedTokens (Field.tokens meaning) (type.fields.getD []))) := by
    have interfaces : Balanced 50 (implementsTokens (type.interfaces.getD [])) := by
      unfold implementsTokens
      split_ifs
      · exact .nil
      · exact balanced_name (by decide) (balanced_separated rfl rfl named)
    exact balanced_name known (balanced_name formed.name (interfaces.append (balanced_braced
      fun field member => (shallow.fields field member).balanced (fields field member))))
  refine (balanced_described _ _).append ?_
  unfold NamedType.bodyTokens
  cases kind : type.kind with
  | scalar => exact balanced_name (by decide) (balanced_name formed.name .nil)
  | object =>
    rw [kind] at body
    exact withFields (by decide) body.1 body.2
  | interface =>
    rw [kind] at body
    exact withFields (by decide) body.1 body.2
  | union =>
    rw [kind] at body
    exact balanced_name (by decide) (balanced_name formed.name
      (.mark rfl rfl (balanced_separated rfl rfl body.2)))
  | enumeration =>
    rw [kind] at body
    exact balanced_name (by decide) (balanced_name formed.name
      (balanced_braced fun value member => (body value member).balanced))
  | inputObject =>
    rw [kind] at body
    exact balanced_name (by decide) (balanced_name formed.name (balanced_braced fun input member =>
      (balanced_described _ _).append
        ((shallow.inputFields input member).balanced (body input member).1.name)))
  | list => exact .nil
  | nonNull => exact .nil

/-- No brackets of the schema are nested too deep. -/
theorem fits_tokens {schema : Schema} (formed : schema.Formed meaning.texts)
    (shallow : ∀ type ∈ schema.printedTypes, type.Shallow) : fits 0 (schema.tokens meaning) = true := by
  have types : Balanced 50 (schema.printedTypes.flatMap (NamedType.tokens meaning)) :=
    .flatMap fun type member => (shallow type member).balanced (formed.types type member)
  have roots : Balanced 50 (bracedTokens rootTokens schema.presentRoots) := by
    refine @balanced_braced 49 _ _ _ fun root member => ?_
    exact balanced_name (legal_operation member) (.mark rfl rfl (balanced_name (formed.roots root member) .nil))
  have whole : Balanced 50 (schema.tokens meaning) := by
    refine Balanced.append ?_ types
    split_ifs
    · exact balanced_name (by decide) roots
    · exact .nil
  have fitting := whole 0 [] (by decide)
  rwa [List.append_nil] at fitting

end Balance

end TypedClient.GraphQl
