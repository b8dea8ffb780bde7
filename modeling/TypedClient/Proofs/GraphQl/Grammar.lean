import TypedClient.Proofs.GraphQl.SchemaTokens
import TypedClient.Proofs.GraphQl.Values

/-! What the tokens of a printed schema are read as. -/

set_option autoImplicit false

namespace TypedClient.GraphQl

open Definitions

section Outlines

def TypeRef.use : TypeRef → TypeUse
  | leaf _ name => .named (name.getD "")
  | wrapper .nonNull _ inner => .nonNull inner.use
  | wrapper .list _ inner => .list inner.use
  | wrapper _ name _ => .named (name.getD "")

def deprecationOutline (deprecated : Bool) (reason : Option String) : List Directive :=
  if !deprecated then []
  else match reason with
    | none => [⟨"deprecated", []⟩]
    | some text =>
      if text = standardReason then [⟨"deprecated", []⟩]
      else [⟨"deprecated", [("reason", .text text)]⟩]

def describedOutline (read : String → String) : Option String → Option String
  | none => none
  | some text => if text.isEmpty then none else some (read text)

def InputValue.outline (input : InputValue) : InputDefinition :=
  ⟨input.name, none, input.type.use, input.default.map sourceValue⟩

variable (meaning : Meaning)

def InputValue.memberOutline (input : InputValue) : InputDefinition :=
  { input.outline with description := describedOutline meaning.memberText input.description }

def Field.outline (field : Field) : FieldDefinition where
  name := field.name
  description := describedOutline meaning.memberText field.description
  arguments := field.arguments.map InputValue.outline
  type := field.type.use
  directives := deprecationOutline field.deprecated field.reason

def EnumValue.outline (value : EnumValue) : EnumValueDefinition where
  name := value.name
  description := describedOutline meaning.memberText value.description
  directives := deprecationOutline value.deprecated value.reason

def NamedType.content? (type : NamedType) : Option TypeContent :=
  let interfaces := (type.interfaces.getD []).map TypeRef.name
  let fields := (type.fields.getD []).map (Field.outline meaning)
  match type.kind with
  | .scalar => some .scalar
  | .object => some (.object interfaces fields)
  | .interface => some (.interface interfaces fields)
  | .union => some (.union ((type.possibleTypes.getD []).map TypeRef.name))
  | .enumeration => some (.enumeration ((type.enumValues.getD []).map (EnumValue.outline meaning)))
  | .inputObject =>
    some (.inputObject ((type.inputFields.getD []).map (InputValue.memberOutline meaning)))
  | .list => none
  | .nonNull => none

def NamedType.outline? (type : NamedType) : Option TypeDefinition :=
  (type.content? meaning).map fun content =>
    ⟨type.name, describedOutline meaning.typeText type.description, content⟩

def NamedType.isFilled (type : NamedType) : Bool :=
  match type.kind with
  | .object | .interface => !(type.fields.getD []).isEmpty
  | .enumeration => !(type.enumValues.getD []).isEmpty
  | .inputObject => !(type.inputFields.getD []).isEmpty
  | .scalar | .union | .list | .nonNull => true

def Schema.rootNames (schema : Schema) : RootNames :=
  ⟨schema.queryType, schema.mutationType, schema.subscriptionType⟩

def Schema.typeOutlines (schema : Schema) : List TypeDefinition :=
  schema.printedTypes.filterMap (NamedType.outline? meaning)

def Schema.outline (schema : Schema) : List Definition :=
  (if schema.hasUnusualRoot then [.roots schema.rootNames] else []) ++
    (schema.typeOutlines meaning).map .type

end Outlines

section Stops

def without (c : Char) (tokens : List Token) : Bool := tokens.head? != some (.mark c)

theorem head_ne_of_without {c : Char} {tokens : List Token} (stopped : without c tokens = true) :
    tokens.head? ≠ some (.mark c) := by
  simpa [without] using stopped

theorem without_of_ends {c : Char} {tokens : List Token} (stopped : ends tokens = true)
    (other : isClosing c = false) : without c tokens = true := by
  unfold without
  cases tokens with
  | nil => rfl
  | cons token tokens =>
    cases token with
    | mark d =>
      have different : d ≠ c := by
        rintro rfl
        have closing : isClosing d = true := stopped
        rw [other] at closing
        cases closing
      simpa using different
    | _ => simp

end Stops

section Types

def readBase (limit : Nat) : Reader TypeUse := do
  if ← Reader.skip '[' then do
    let item ← readType limit
    Reader.mark ']'
    pure (TypeUse.list item)
  else pure (TypeUse.named (← Reader.name))

theorem readType_succ (limit : Nat) : readType (limit + 1) = (do
    let type ← readBase limit
    if ← Reader.skip '!' then return .nonNull type else return type) := by
  rw [readType, readBase, bind_assoc]
  refine bind_congr fun opened => ?_
  cases opened <;> simp [bind_assoc]

section Base
variable {limit : Nat} {tokens : List Token} {use : TypeUse}

theorem readType_of_base (reads : Reads anywhere (readBase limit) tokens use) :
    Reads (without '!') (readType (limit + 1)) tokens use := by
  intro rest stopped
  rw [readType_succ, bind_eq (reads rest rfl), bind_eq (skip_other (head_ne_of_without stopped))]
  rfl

theorem readType_of_forced_base (reads : Reads anywhere (readBase limit) tokens use) :
    Reads (without '!') (readType (limit + 1)) (tokens ++ [.mark '!']) (.nonNull use) := by
  intro rest _
  rw [List.append_assoc, List.singleton_append, readType_succ, bind_eq (reads _ rfl),
    bind_eq (skip_mark rest)]
  rfl

theorem readBase_list (reads : Reads (without '!') (readType limit) tokens use) :
    Reads anywhere (readBase limit) (.mark '[' :: (tokens ++ [.mark ']'])) (.list use) := by
  intro rest _
  rw [List.cons_append, List.append_assoc, List.singleton_append, readBase, bind_eq (skip_mark _)]
  simp only [if_true]
  rw [bind_eq (reads (.mark ']' :: rest) rfl), bind_eq (mark_eq rest)]
  rfl

end Base

theorem TypeRef.Proper.readType_eq {type : TypeRef} (proper : type.Proper) {limit : Nat}
    (enough : type.tokens.length ≤ limit) :
    (type.isForced = false → Reads anywhere (readBase limit) type.tokens type.use) ∧
      Reads (without '!') (readType (limit + 1)) type.tokens type.use := by
  induction proper generalizing limit with
  | @leaf kind name _ =>
    have reads : Reads anywhere (readBase limit) [.name name] (.named name) := fun rest _ => rfl
    exact ⟨fun _ => reads, readType_of_base reads⟩
  | @other kind name inner _ noList noForce =>
    have use : (wrapper kind (some name) inner).use = .named name := by
      rw [TypeRef.use]
      · rfl
      · exact noForce
      · exact noList
    rw [tokens_other _ _ noList noForce, use]
    have reads : Reads anywhere (readBase limit) [.name name] (.named name) := fun rest _ => rfl
    exact ⟨fun _ => reads, readType_of_base reads⟩
  | @list name inner _ ih =>
    rw [TypeRef.tokens] at enough ⊢
    simp only [List.length_cons, List.length_append] at enough
    obtain ⟨limit, rfl⟩ := Nat.exists_eq_add_of_le' (Nat.le_trans (Nat.succ_pos _) enough)
    have reads := readBase_list (@ih limit (by omega)).2
    exact ⟨fun _ => reads, readType_of_base reads⟩
  | @nonNull name inner _ unforced ih =>
    rw [TypeRef.tokens] at enough ⊢
    rw [List.length_append] at enough
    have reads := (@ih limit (by omega)).1 unforced
    exact ⟨fun forced => absurd forced (by simp [isForced]), readType_of_forced_base reads⟩

theorem TypeRef.Proper.reads {type : TypeRef} (proper : type.Proper) :
    Reads (without '!') Definitions.type type.tokens type.use := by
  intro rest stopped
  unfold Definitions.type
  rw [bind_eq (remaining_eq _)]
  exact (proper.readType_eq (by rw [List.length_append]; omega)).2 rest stopped

end Types

section Directives

def directiveTokens (directive : Directive) : List Token :=
  .name directive.name ::
    (if directive.arguments.isEmpty then []
    else .mark '(' :: (directive.arguments.flatMap pairTokens ++ [.mark ')']))

theorem deprecationTokens_eq (deprecated : Bool) (reason : Option String) :
    deprecationTokens deprecated reason = (deprecationOutline deprecated reason).flatMap
      fun directive => .mark '@' :: directiveTokens directive := by
  unfold deprecationTokens deprecationOutline
  cases deprecated with
  | false => rfl
  | true =>
    cases reason with
    | none => rfl
    | some text =>
      by_cases standard : text = standardReason
      · simp [standard, directiveTokens]
      · simp [standard, directiveTokens, pairTokens, Value.tokens]

theorem reads_directive {directive : Directive}
    (readable : ∀ argument ∈ directive.arguments, argument.2.Readable) :
    Reads (without '(') Definitions.directive (directiveTokens directive) directive := by
  intro rest stopped
  obtain ⟨name, arguments⟩ := directive
  unfold Definitions.directive directiveTokens
  rw [List.cons_append, bind_eq (name_eq _ _)]
  by_cases empty : arguments = []
  · subst empty
    simp only [List.isEmpty_nil, if_true, List.nil_append]
    rw [bind_eq (group_absent (head_ne_of_without stopped))]
    rfl
  · have each : ∀ argument ∈ arguments,
        Reads anywhere Definitions.argument (pairTokens argument) argument := by
      intro argument member rest _
      unfold Definitions.argument
      rw [pairTokens, List.cons_append, List.cons_append, bind_eq (name_eq _ _), bind_eq (mark_eq _),
        bind_eq (remaining_eq _),
        bind_eq (readValue_eq (readable argument member) true (by rw [List.length_append]; omega) _ rfl)]
      rfl
    have begins : ∀ argument ∈ arguments, Begins anywhere ')' (pairTokens argument) :=
      fun argument _ => ⟨.name argument.1, _, rfl, by simp, fun _ => rfl⟩
    have read := group_eq '(' empty each begins (fun _ => rfl) rest
    simp only [List.isEmpty_iff, empty, if_false]
    rw [List.cons_append, List.append_assoc, List.singleton_append, bind_eq read, List.map_id']
    rfl

theorem readable_deprecation {deprecated : Bool} {reason : Option String} {directive : Directive}
    (member : directive ∈ deprecationOutline deprecated reason) :
    ∀ argument ∈ directive.arguments, argument.2.Readable := by
  have given : directive = ⟨"deprecated", []⟩ ∨
      ∃ text, directive = ⟨"deprecated", [("reason", .text text)]⟩ := by
    unfold deprecationOutline at member
    split_ifs at member
    · cases member
    · split at member
      · exact .inl (List.mem_singleton.mp member)
      · split_ifs at member
        · exact .inl (List.mem_singleton.mp member)
        · exact .inr ⟨_, List.mem_singleton.mp member⟩
  rcases given with rfl | ⟨text, rfl⟩
  · simp
  · simpa using Value.Readable.text text

theorem reads_deprecation (deprecated : Bool) (reason : Option String) :
    Reads ends directives (deprecationTokens deprecated reason)
      (deprecationOutline deprecated reason) := by
  intro rest stopped
  have fewer : (deprecationOutline deprecated reason).length ≤ ((deprecationOutline deprecated reason).flatMap
      fun directive => .mark '@' :: directiveTokens directive).length :=
    length_le_flatMap fun directive _ => List.cons_ne_nil _ _
  have read : Reader.following '@' directive (deprecationTokens deprecated reason ++ rest).length
      ((deprecationOutline deprecated reason).flatMap
        (fun directive => .mark '@' :: directiveTokens directive) ++ rest) =
      some ((deprecationOutline deprecated reason).map id, rest) := following_eq '@'
    (fun directive member => reads_directive (readable_deprecation member)) (fun _ => rfl)
    (by rw [deprecationTokens_eq, List.length_append]; omega) (without_of_ends stopped rfl)
    (head_ne_of_without (without_of_ends stopped rfl))
  rw [List.map_id, ← deprecationTokens_eq] at read
  unfold directives
  rw [bind_eq (remaining_eq _)]
  exact read

theorem no_directives (rest : List Token) (other : without '@' rest = true) :
    directives rest = some ([], rest) := by
  unfold directives
  rw [bind_eq (remaining_eq _)]
  cases rest.length with
  | zero => rfl
  | succ limit =>
    rw [Reader.following, bind_eq (skip_other (head_ne_of_without other))]
    rfl

end Directives

section Members
variable {meaning : Meaning}

theorem description_eq (read : String → String) (description : Option String) (name : String)
    (rest : List Token) :
    Reader.description (describedTokens read description ++ .name name :: rest) =
      some (describedOutline read description, .name name :: rest) := by
  cases description with
  | none => rfl
  | some text =>
    simp only [describedTokens, describedOutline]
    split_ifs <;> rfl

/-- A member begins with its description or its name. -/
theorem begins_described (read : String → String) (description : Option String) (name : String)
    (more : List Token) (c : Char) :
    Begins ends c (describedTokens read description ++ .name name :: more) := by
  have bare : Begins ends c (.name name :: more) := ⟨_, _, rfl, by simp, fun _ => rfl⟩
  cases description with
  | none => exact bare
  | some text =>
    simp only [describedTokens]
    split_ifs
    · exact bare
    · exact ⟨_, _, rfl, by simp, fun _ => rfl⟩

theorem InputValue.Formed.reads_member {input : InputValue} (formed : input.Formed) :
    Reads ends inputDefinition (input.memberTokens meaning) (input.memberOutline meaning) := by
  intro rest stopped
  unfold inputDefinition InputValue.memberTokens InputValue.tokens
  simp only [List.append_assoc, List.cons_append]
  rw [bind_eq (description_eq _ _ _ _), bind_eq (name_eq _ _), bind_eq (mark_eq _)]
  unfold InputValue.memberOutline InputValue.outline
  cases given : input.default with
  | none =>
    rw [defaultTokens, List.nil_append, bind_eq (formed.type.reads _ (without_of_ends stopped rfl)),
      bind_eq (skip_other (head_ne_of_without (without_of_ends stopped rfl)))]
    simp only [Bool.false_eq_true, if_false]
    rw [bind_eq (pure_eq _ _), bind_eq (no_directives _ (without_of_ends stopped rfl))]
    rfl
  | some text =>
    have read := (formed.default text given).reads rest rfl
    have read' : (some <$> constant) (sourceTokens text ++ rest) =
        some (some (sourceValue text), rest) := by
      rw [map_eq_pure_bind, bind_eq read]
      rfl
    rw [defaultTokens, List.cons_append, bind_eq (formed.type.reads (.mark '=' :: _) rfl),
      bind_eq (skip_mark _)]
    simp only [if_true]
    rw [bind_eq read', bind_eq (no_directives _ (without_of_ends stopped rfl))]
    rfl

theorem InputValue.Formed.reads {input : InputValue} (formed : input.Formed) :
    Reads ends inputDefinition input.tokens input.outline := by
  have bare : ({ input with description := none } : InputValue).Formed :=
    ⟨formed.name, formed.type, formed.default⟩
  exact @InputValue.Formed.reads_member ⟨id, id⟩ _ bare

theorem Field.Formed.reads {field : Field} (formed : field.Formed meaning.texts) :
    Reads ends fieldDefinition (field.tokens meaning) (field.outline meaning) := by
  intro rest stopped
  have behind : without '!' (deprecationTokens field.deprecated field.reason ++ rest) = true := by
    rw [deprecationTokens_eq]
    cases deprecationOutline field.deprecated field.reason with
    | nil => exact without_of_ends stopped rfl
    | cons directive directives => rfl
  have arguments : Reader.group '(' ')' inputDefinition
      (argumentTokens field.arguments ++ .mark ':' :: (field.type.tokens ++
        (deprecationTokens field.deprecated field.reason ++ rest))) =
      some (field.arguments.map InputValue.outline, .mark ':' :: (field.type.tokens ++
        (deprecationTokens field.deprecated field.reason ++ rest))) := by
    unfold argumentTokens
    by_cases empty : field.arguments = []
    · rw [empty]
      exact group_absent (by simp)
    · simp only [List.isEmpty_iff, empty, if_false]
      rw [List.cons_append, List.append_assoc]
      exact group_eq _ empty (fun argument member => (formed.arguments argument member).reads)
        (fun argument _ => begins_described id none argument.name _ _) (fun _ => rfl) _
  unfold fieldDefinition Field.tokens
  simp only [List.append_assoc, List.cons_append]
  rw [bind_eq (description_eq _ _ _ _), bind_eq (name_eq _ _), bind_eq arguments, bind_eq (mark_eq _),
    bind_eq (formed.type.reads _ behind), bind_eq (reads_deprecation _ _ rest stopped)]
  rfl

theorem EnumValue.reads (value : EnumValue) :
    Reads ends enumValueDefinition (value.tokens meaning) (value.outline meaning) := by
  intro rest stopped
  unfold enumValueDefinition EnumValue.tokens
  rw [List.append_assoc, List.cons_append, bind_eq (description_eq _ _ _ _), bind_eq (name_eq _ _),
    bind_eq (reads_deprecation _ _ rest stopped)]
  rfl

end Members

section Contents
variable {meaning : Meaning}

theorem braced_eq {α ι : Type} {item : Reader α} {items : List ι} {tokensOf : ι → List Token}
    {valueOf : ι → α} (each : ∀ one ∈ items, Reads ends item (tokensOf one) (valueOf one))
    (begins : ∀ one ∈ items, Begins ends '\x7d' (tokensOf one))
    (fails : ∀ rest, item (.mark '\x7d' :: rest) = none) (rest : List Token) :
    Reader.group '\x7b' '\x7d' item (bracedTokens tokensOf items ++ rest) =
      if items.isEmpty then none else some (items.map valueOf, rest) := by
  rw [bracedTokens, List.cons_append, List.append_assoc, List.singleton_append]
  split_ifs with empty
  · rw [List.isEmpty_iff.mp empty]
    exact group_empty (fails rest)
  · exact group_eq _ (by simpa using empty) each begins (fun _ => rfl) rest

theorem interfaces_eq (types : List TypeRef) {c : Char} {rest : List Token} (other : c ≠ '&') :
    interfaces (implementsTokens types ++ .mark c :: rest) =
      some (types.map TypeRef.name, .mark c :: rest) := by
  have each : ∀ type ∈ types, Reads anywhere Reader.name (nameTokens type) type.name :=
    fun type _ rest _ => rfl
  unfold interfaces implementsTokens
  by_cases empty : types = []
  · subst empty
    rfl
  · have word : Reader.skipWord "implements" (.name "implements" ::
        (separatedTokens '&' nameTokens types ++ .mark c :: rest)) =
        some (true, separatedTokens '&' nameTokens types ++ .mark c :: rest) := by
      simp [Reader.skipWord]
    simp only [List.isEmpty_iff, empty, if_false]
    rw [List.cons_append, bind_eq word]
    exact separated_eq '&' empty each (fun type _ => by simp [nameTokens]) (fun _ => rfl) rfl
      (by simpa using other)

def readWithFields (content : List String → List FieldDefinition → TypeContent) :
    Reader (String × TypeContent) := do
  let name ← Reader.name
  let interfaces ← interfaces
  let _ ← directives
  return (name, content interfaces (← fields))

theorem readWithFields_eq (content : List String → List FieldDefinition → TypeContent) (name : String)
    (types : List TypeRef) {fields : List Field}
    (formed : ∀ field ∈ fields, field.Formed meaning.texts) (rest : List Token) :
    readWithFields content (.name name ::
        (implementsTokens types ++ (bracedTokens (Field.tokens meaning) fields ++ rest))) =
      if fields.isEmpty then none
      else some ((name, content (types.map TypeRef.name) (fields.map (Field.outline meaning))), rest) := by
  have braced := braced_eq (fun field member => (formed field member).reads)
    (fun field _ => begins_described _ field.description field.name _ _) (fun _ => rfl) rest
  have inside : interfaces (implementsTokens types ++ (bracedTokens (Field.tokens meaning) fields ++ rest)) =
      some (types.map TypeRef.name, bracedTokens (Field.tokens meaning) fields ++ rest) :=
    interfaces_eq types (by decide)
  unfold readWithFields
  rw [bind_eq (name_eq _ _), bind_eq inside,
    bind_eq (no_directives (bracedTokens (Field.tokens meaning) fields ++ rest) rfl)]
  split_ifs at braced ⊢
  · exact bind_eq_none braced
  · exact bind_eq braced

theorem describedDefinition_eq {keyword : String} (content : Reader (String × TypeContent))
    (known : typeContent? keyword = some content) (other : keyword ≠ "directive")
    (description : Option String) (tokens : List Token) :
    describedDefinition description (.name keyword :: tokens) =
      (content tokens).map fun ((name, content), rest) => (.type ⟨name, description, content⟩, rest) := by
  unfold describedDefinition
  rw [bind_eq (name_eq _ _), if_neg other, known]
  cases read : content tokens with
  | none => exact bind_eq_none read
  | some result => exact bind_eq read

def readUnion : Reader (String × TypeContent) := do
  let name ← Reader.name
  let _ ← directives
  return (name, .union (← unionMembers))

theorem readUnion_eq (name : String) {members : List TypeRef} (nonempty : members ≠ [])
    {rest : List Token} (stopped : ends rest = true) :
    readUnion (.name name :: .mark '=' :: (separatedTokens '|' nameTokens members ++ rest)) =
      some ((name, .union (members.map TypeRef.name)), rest) := by
  have each : ∀ member ∈ members, Reads anywhere Reader.name (nameTokens member) member.name :=
    fun member _ rest _ => rfl
  have listed := separated_eq '|' nonempty each (fun member _ => by simp [nameTokens])
    (fun _ => rfl) rfl (head_ne_of_without (without_of_ends stopped rfl))
  have read : unionMembers (.mark '=' :: (separatedTokens '|' nameTokens members ++ rest)) =
      some (members.map TypeRef.name, rest) := by
    unfold unionMembers
    rw [bind_eq (skip_mark _)]
    exact listed
  unfold readUnion
  rw [bind_eq (name_eq _ _), bind_eq (no_directives (.mark '=' :: _) rfl), bind_eq read]
  rfl

def readBraced {α : Type} (content : List α → TypeContent) (item : Reader α) :
    Reader (String × TypeContent) := do
  let name ← Reader.name
  let _ ← directives
  return (name, content (← Reader.group '\x7b' '\x7d' item))

theorem readBraced_eq {α ι : Type} {item : Reader α} {items : List ι} {tokensOf : ι → List Token}
    {valueOf : ι → α} (content : List α → TypeContent) (name : String) {rest : List Token}
    (braced : Reader.group '\x7b' '\x7d' item (bracedTokens tokensOf items ++ rest) =
      if items.isEmpty then none else some (items.map valueOf, rest)) :
    readBraced content item (.name name :: (bracedTokens tokensOf items ++ rest)) =
      if items.isEmpty then none else some ((name, content (items.map valueOf)), rest) := by
  unfold readBraced
  rw [bind_eq (name_eq _ _),
    bind_eq (no_directives (bracedTokens tokensOf items ++ rest) rfl)]
  split_ifs at braced ⊢
  · exact bind_eq_none braced
  · exact bind_eq braced

theorem describedDefinition_withFields {keyword : String}
    (content : List String → List FieldDefinition → TypeContent)
    (known : typeContent? keyword = some (readWithFields content)) (other : keyword ≠ "directive")
    (description : Option String) (name : String) (types : List TypeRef) {fields : List Field}
    (formed : ∀ field ∈ fields, field.Formed meaning.texts) (rest : List Token) :
    describedDefinition description (.name keyword :: .name name ::
        (implementsTokens types ++ (bracedTokens (Field.tokens meaning) fields ++ rest))) =
      if !fields.isEmpty then
        some (.type ⟨name, description,
          content (types.map TypeRef.name) (fields.map (Field.outline meaning))⟩, rest)
      else none := by
  rw [describedDefinition_eq (readWithFields content) known other,
    readWithFields_eq content name types formed rest]
  cases fields <;> rfl

theorem describedDefinition_braced {α ι : Type} {keyword : String} {content : List α → TypeContent}
    {item : Reader α} (known : typeContent? keyword = some (readBraced content item))
    (other : keyword ≠ "directive") (description : Option String) (name : String) {items : List ι}
    {tokensOf : ι → List Token} {valueOf : ι → α}
    (each : ∀ one ∈ items, Reads ends item (tokensOf one) (valueOf one))
    (begins : ∀ one ∈ items, Begins ends '\x7d' (tokensOf one))
    (fails : ∀ rest, item (.mark '\x7d' :: rest) = none) (rest : List Token) :
    describedDefinition description
        (.name keyword :: .name name :: (bracedTokens tokensOf items ++ rest)) =
      if !items.isEmpty then some (.type ⟨name, description, content (items.map valueOf)⟩, rest)
      else none := by
  rw [describedDefinition_eq (readBraced content item) known other,
    readBraced_eq content name (braced_eq each begins fails rest)]
  cases items <;> rfl

/-- A type is read as its outline, unless its braces are empty. -/
theorem NamedType.Formed.describedDefinition_eq {type : NamedType} (formed : type.Formed meaning.texts)
    {content : TypeContent} (declared : type.content? meaning = some content)
    (description : Option String) {rest : List Token} (stopped : ends rest = true) :
    describedDefinition description (type.bodyTokens meaning ++ rest) =
      if type.isFilled then some (.type ⟨type.name, description, content⟩, rest) else none := by
  have body := formed.body
  unfold NamedType.BodyFormed at body
  unfold NamedType.content? at declared
  unfold NamedType.bodyTokens NamedType.isFilled
  cases kind : type.kind with
  | scalar =>
    simp only [kind] at declared ⊢
    cases declared
    rw [List.cons_append, GraphQl.describedDefinition_eq _ rfl (by decide),
      List.cons_append, bind_eq (name_eq _ _), List.nil_append,
      bind_eq (no_directives _ (without_of_ends stopped rfl))]
    rfl
  | object =>
    simp only [kind] at declared body ⊢
    cases declared
    simp only [List.cons_append, List.append_assoc]
    exact describedDefinition_withFields .object rfl (by decide) description type.name _ body.2 rest
  | interface =>
    simp only [kind] at declared body ⊢
    cases declared
    simp only [List.cons_append, List.append_assoc]
    exact describedDefinition_withFields .interface rfl (by decide) description type.name _ body.2 rest
  | union =>
    simp only [kind] at declared body ⊢
    cases declared
    simp only [List.cons_append]
    rw [GraphQl.describedDefinition_eq readUnion rfl (by decide),
      readUnion_eq type.name body.1 stopped]
    rfl
  | enumeration =>
    simp only [kind] at declared ⊢
    cases declared
    simp only [List.cons_append]
    exact describedDefinition_braced rfl (by decide) description type.name (fun value _ => value.reads)
      (fun value _ => begins_described _ value.description value.name _ _) (fun _ => rfl) rest
  | inputObject =>
    simp only [kind] at declared body ⊢
    cases declared
    simp only [List.cons_append]
    exact describedDefinition_braced rfl (by decide) description type.name
      (fun input member => (body input member).1.reads_member)
      (fun input _ => begins_described _ input.description input.name _ _) (fun _ => rfl) rest
  | list => simp [kind] at declared
  | nonNull => simp [kind] at declared

end Contents

section Definitions
variable {meaning : Meaning}

theorem definition_eq {keyword : String} (read : String → String) (description : Option String)
    (noBlock : keyword ≠ "schema") (noExtension : keyword ≠ "extend") (tokens : List Token) :
    definition (describedTokens read description ++ .name keyword :: tokens) =
      describedDefinition (describedOutline read description) (.name keyword :: tokens) := by
  have block : Reader.skipWord "schema" (.name keyword :: tokens) = some (false, .name keyword :: tokens) := by
    simp [Reader.skipWord, noBlock]
  have extension : Reader.skipWord "extend" (.name keyword :: tokens) = some (false, .name keyword :: tokens) := by
    simp [Reader.skipWord, noExtension]
  unfold definition
  rw [bind_eq (description_eq read description keyword tokens)]
  cases describedOutline read description with
  | some text => rfl
  | none =>
    simp only
    rw [bind_eq block]
    simp only [Bool.false_eq_true, if_false]
    rw [bind_eq extension]
    rfl

theorem NamedType.exists_keyword {type : NamedType} {content : TypeContent}
    (declared : type.content? meaning = some content) :
    ∃ keyword more, type.bodyTokens meaning = .name keyword :: more ∧ keyword ≠ "schema" ∧
      keyword ≠ "extend" := by
  unfold NamedType.content? at declared
  unfold NamedType.bodyTokens
  cases kind : type.kind with
  | list => simp [kind] at declared
  | nonNull => simp [kind] at declared
  | _ => exact ⟨_, _, rfl, by decide, by decide⟩

theorem NamedType.Formed.definition_eq {type : NamedType} (formed : type.Formed meaning.texts)
    {outline : TypeDefinition} (declared : type.outline? meaning = some outline) {rest : List Token}
    (stopped : ends rest = true) :
    definition (type.tokens meaning ++ rest) =
      if type.isFilled then some (.type outline, rest) else none := by
  obtain ⟨content, known, rfl⟩ := Option.map_eq_some_iff.mp declared
  obtain ⟨keyword, more, body, noBlock, noExtension⟩ := exists_keyword known
  have read := formed.describedDefinition_eq known
    (describedOutline meaning.typeText type.description) stopped
  rw [body, List.cons_append] at read
  rw [NamedType.tokens, body, List.append_assoc, List.cons_append,
    GraphQl.definition_eq _ _ noBlock noExtension, read]

/-- A type without a definition leaves nothing behind. -/
theorem NamedType.Formed.tokens_of_undeclared {type : NamedType} (formed : type.Formed meaning.texts)
    (undeclared : type.outline? meaning = none) :
    type.tokens meaning = [] ∧ type.isFilled = true := by
  have body := formed.body
  unfold NamedType.outline? NamedType.content? at undeclared
  unfold NamedType.BodyFormed at body
  have silent : (∀ text ∈ type.description, text = "") →
      describedTokens meaning.typeText type.description = [] := by
    intro empty
    cases given : type.description with
    | none => rfl
    | some text => simp [describedTokens, empty text given]
  unfold NamedType.tokens NamedType.bodyTokens NamedType.isFilled
  cases kind : type.kind with
  | list =>
    rw [kind] at body
    exact ⟨by simp [silent body], rfl⟩
  | nonNull =>
    rw [kind] at body
    exact ⟨by simp [silent body], rfl⟩
  | _ => simp [kind] at undeclared

theorem NamedType.begins_tokens {type : NamedType} {outline : TypeDefinition}
    (declared : type.outline? meaning = some outline) :
    Begins ends '\x7d' (type.tokens meaning) := by
  obtain ⟨content, known, rfl⟩ := Option.map_eq_some_iff.mp declared
  obtain ⟨keyword, more, body, -⟩ := exists_keyword known
  rw [NamedType.tokens, body]
  exact begins_described _ _ _ _ _

theorem ends_types {types : List NamedType} (formed : ∀ type ∈ types, type.Formed meaning.texts) :
    ends (types.flatMap (NamedType.tokens meaning)) = true := by
  induction types with
  | nil => rfl
  | cons type types ih =>
    obtain ⟨first, others⟩ := List.forall_mem_cons.mp formed
    rw [List.flatMap_cons]
    cases declared : type.outline? meaning with
    | none =>
      rw [(first.tokens_of_undeclared declared).1]
      exact ih others
    | some outline =>
      obtain ⟨token, more, same, -, stopped⟩ := NamedType.begins_tokens declared
      rw [same]
      exact stopped _

/-- The types are read one by one. -/
theorem definitionsWithin_types {types : List NamedType}
    (formed : ∀ type ∈ types, type.Formed meaning.texts) {limit : Nat}
    (enough : (types.flatMap (NamedType.tokens meaning)).length ≤ limit) :
    definitionsWithin limit (types.flatMap (NamedType.tokens meaning)) =
      if types.all NamedType.isFilled then
        some ((types.filterMap (NamedType.outline? meaning)).map .type)
      else none := by
  induction types generalizing limit with
  | nil => cases limit <;> rfl
  | cons type types ih =>
    obtain ⟨first, others⟩ := List.forall_mem_cons.mp formed
    rw [List.flatMap_cons] at enough ⊢
    cases declared : type.outline? meaning with
    | none =>
      obtain ⟨silent, filled⟩ := first.tokens_of_undeclared declared
      rw [silent] at enough ⊢
      rw [List.nil_append, ih others enough, List.filterMap_cons_none declared, List.all_cons, filled,
        Bool.true_and]
    | some outline =>
      obtain ⟨token, more, same, -, -⟩ := NamedType.begins_tokens declared
      have read := first.definition_eq declared (ends_types others)
      rw [List.filterMap_cons_some declared, List.all_cons]
      rw [same] at enough read ⊢
      rw [List.cons_append, List.length_cons, List.length_append] at enough
      obtain ⟨limit, rfl⟩ := Nat.exists_eq_add_of_le' (Nat.le_trans (Nat.succ_pos _) enough)
      rw [List.cons_append] at read ⊢
      simp only [definitionsWithin, read]
      cases type.isFilled with
      | false => rfl
      | true =>
        simp only [if_true, Option.bind_eq_bind, Option.bind_some, Bool.true_and]
        rw [ih others (by omega)]
        split_ifs <;> rfl

end Definitions

section Roots

/-- The entries of a schema block are read as its roots. -/
theorem rootEntries_eq (schema : Schema) {limit : Nat} (enough : 3 < limit) (rest : List Token) :
    rootEntries limit RootNames.none
      (schema.presentRoots.flatMap rootTokens ++ .mark '\x7d' :: rest) =
      some (schema.rootNames, rest) := by
  obtain ⟨limit, rfl⟩ := Nat.exists_eq_add_of_le' enough
  obtain ⟨query, mutation, subscription, types⟩ := schema
  unfold Schema.presentRoots Schema.roots Schema.rootNames
  cases query <;> cases mutation <;> cases subscription <;> rfl

theorem exists_presentRoot {schema : Schema} (unusual : schema.hasUnusualRoot = true) :
    ∃ root more, schema.presentRoots = root :: more := by
  unfold Schema.hasUnusualRoot at unusual
  obtain ⟨⟨operation, root, usual⟩, listed, present⟩ := List.any_eq_true.mp unusual
  cases root with
  | none => cases present
  | some name =>
    have member : (operation, name) ∈ schema.presentRoots :=
      List.mem_filterMap.mpr ⟨_, listed, rfl⟩
    exact List.exists_cons_of_ne_nil (List.ne_nil_of_mem member)

theorem definition_schemaBlock {schema : Schema} (unusual : schema.hasUnusualRoot = true)
    (rest : List Token) :
    definition (.name "schema" :: (bracedTokens rootTokens schema.presentRoots ++ rest)) =
      some (.roots schema.rootNames, rest) := by
  have block : schemaBlock (bracedTokens rootTokens schema.presentRoots ++ rest) =
      some (.roots schema.rootNames, rest) := by
    obtain ⟨root, more, given⟩ := exists_presentRoot unusual
    have room : 3 < (schema.presentRoots.flatMap rootTokens ++ .mark '\x7d' :: rest).length + 1 := by
      simp only [given, List.flatMap_cons, rootTokens, List.length_append, List.length_cons]
      omega
    rw [bracedTokens, List.cons_append, List.append_assoc, List.singleton_append]
    unfold schemaBlock
    rw [bind_eq (no_directives (.mark '\x7b' :: _) rfl), bind_eq (mark_eq _),
      bind_eq (remaining_eq _), bind_eq (rootEntries_eq schema room rest)]
    rfl
  have word : ∀ tokens, Reader.skipWord "schema" (.name "schema" :: tokens) = some (true, tokens) := by
    simp [Reader.skipWord]
  have undescribed : ∀ tokens, Reader.description (.name "schema" :: tokens) =
      some (none, .name "schema" :: tokens) := fun _ => rfl
  unfold definition
  rw [bind_eq (undescribed _)]
  simp only
  rw [bind_eq (word _)]
  exact block

end Roots

section Text
variable {meaning : Meaning} {schema : Schema}

theorem definitionsWithin_tokens (formed : schema.Formed meaning.texts) :
    definitionsWithin (schema.tokens meaning).length (schema.tokens meaning) =
      if schema.printedTypes.all NamedType.isFilled then some (schema.outline meaning) else none := by
  unfold Schema.tokens Schema.outline
  cases unusual : schema.hasUnusualRoot with
  | false =>
    simp only [Bool.false_eq_true, if_false, List.nil_append]
    exact definitionsWithin_types formed.types (Nat.le_refl _)
  | true =>
    simp only [if_true, List.cons_append, List.nil_append, List.length_cons, definitionsWithin,
      definition_schemaBlock unusual, Option.bind_eq_bind, Option.bind_some]
    rw [definitionsWithin_types formed.types (by rw [List.length_append]; omega)]
    split_ifs <;> rfl

/-- A printed schema is read as its outline, provided that something is printed, no brackets are
nested too deep and no braces are empty. -/
theorem read?_definitions (formed : schema.Formed meaning.texts) :
    read? schema.definitions =
      if fits 0 (schema.tokens meaning) = true ∧ schema.tokens meaning ≠ [] ∧
          schema.printedTypes.all NamedType.isFilled = true then some (schema.outline meaning)
      else none := by
  unfold read?
  rw [tokens?_eq, lexAll_definitions formed, checked]
  by_cases fitting : fits 0 (schema.tokens meaning) = true
  · by_cases silent : schema.tokens meaning = []
    · simp [silent]
    · simp [fitting, silent, definitionsWithin_tokens formed]
  · simp [fitting]

end Text

section Declared
variable {meaning : Meaning} {schema : Schema}

def NamedType.isDeclared (type : NamedType) : Bool := type.kind != .list && type.kind != .nonNull

def Schema.declaredTypes (schema : Schema) : List NamedType :=
  schema.printedTypes.filter NamedType.isDeclared

theorem NamedType.outline?_eq (meaning : Meaning) (type : NamedType) :
    (type.outline? meaning).map TypeDefinition.name =
      if type.isDeclared then some type.name else none := by
  unfold outline? content? isDeclared
  cases kind : type.kind <;> rfl

theorem names_typeOutlines (meaning : Meaning) : (schema.typeOutlines meaning).map TypeDefinition.name =
    schema.declaredTypes.map NamedType.name := by
  unfold Schema.typeOutlines Schema.declaredTypes
  induction schema.printedTypes with
  | nil => rfl
  | cons type types ih =>
    have same := type.outline?_eq meaning
    cases declared : type.isDeclared with
    | false =>
      rw [declared] at same
      rw [List.filterMap_cons_none (Option.map_eq_none_iff.mp same), ih,
        List.filter_cons_of_neg (by simp [declared])]
    | true =>
      rw [declared] at same
      obtain ⟨outline, given, named⟩ := Option.map_eq_some_iff.mp same
      rw [List.filterMap_cons_some given, List.filter_cons_of_pos declared, List.map_cons,
        List.map_cons, ih, named]

end Declared

end TypedClient.GraphQl
