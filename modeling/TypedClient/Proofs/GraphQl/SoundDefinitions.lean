import TypedClient.Proofs.GraphQl.Grammar
import TypedClient.Proofs.GraphQl.Soundness

/-! What definitions are read from a text. -/

set_option autoImplicit false

namespace TypedClient.GraphQl.Definitions

section Values
variable {depth room : Nat}

def Value.IsConstant (room : Nat) (value : Value) : Prop := value.Sound (fun _ => True) (fun _ => True) room

theorem isConstant_symbolValue {name : String} (legal : isName name = true) :
    (symbolValue name).IsConstant room := by
  by_cases isTrue : name = "true"
  · subst isTrue
    exact .boolean true
  · by_cases isFalse : name = "false"
    · subst isFalse
      exact .boolean false
    · by_cases isNull : name = "null"
      · subst isNull
        exact .null
      · have same : symbolValue name = .symbol name := by simp [symbolValue, isTrue, isFalse, isNull]
        rw [same]
        exact .symbol legal same

theorem isConstant_list {items : List Value} (within : depth < deepest)
    (each : ∀ item ∈ items, item.IsConstant (deepest - (depth + 1))) :
    (Value.list items).IsConstant (deepest - depth) := by
  have room : deepest - depth = deepest - (depth + 1) + 1 := by omega
  rw [room]
  exact .list each

theorem isConstant_object {members : List (String × Value)} (within : depth < deepest)
    (each : ∀ member ∈ members, isName member.1 = true ∧ member.2.IsConstant (deepest - (depth + 1))) :
    (Value.object (sortedMembers members)).IsConstant (deepest - depth) := by
  have room : deepest - depth = deepest - (depth + 1) + 1 := by omega
  rw [room]
  exact .object (sorted_sortedMembers members)
    (fun member inside => (each member (mem_sortedMembers inside)).1)
    fun member inside => (each member (mem_sortedMembers inside)).2

section Parts
variable {withVariables : Bool} {limit : Nat}

theorem readList_yields (item : ∀ {depth}, Yields depth (readValue withVariables limit) fun value =>
      withVariables = false → value.IsConstant (deepest - depth)) :
    Yields depth (do return .list (← Reader.enclosed '[' ']' (readValue withVariables limit)))
      fun value : Value => withVariables = false → value.IsConstant (deepest - depth) :=
  (enclosed_yields (fun _ => item) rfl rfl rfl).bind fun _ each => .pure fun constant =>
    isConstant_list each.1 fun item member => each.2 item member constant

theorem readObject_yields (item : ∀ {depth}, Yields depth (readValue withVariables limit) fun value =>
      withVariables = false → value.IsConstant (deepest - depth)) :
    Yields depth (do
        let members ← Reader.enclosed '\x7b' '\x7d' do
          let name ← Reader.name
          Reader.mark ':'
          return (name, ← readValue withVariables limit)
        return .object (sortedMembers members))
      fun value : Value => withVariables = false → value.IsConstant (deepest - depth) := by
  have pair : Yields (depth + 1) (do
      let name ← Reader.name
      Reader.mark ':'
      return (name, ← readValue withVariables limit)) fun member : String × Value =>
      isName member.1 = true ∧
        (withVariables = false → member.2.IsConstant (deepest - (depth + 1))) :=
    name_yields.bind fun name legal => (mark_yields rfl rfl).bind fun _ _ =>
      item.bind fun value constant => .pure ⟨legal, constant⟩
  exact (enclosed_yields (fun _ => pair) rfl rfl rfl).bind fun _ each => .pure fun constant =>
    isConstant_object each.1 fun member inside =>
      ⟨(each.2 member inside).1, (each.2 member inside).2 constant⟩

theorem readVariable_yields : Yields depth (do
      Reader.mark '$'
      return .variable (← Reader.name)) fun value : Value =>
      true = false → value.IsConstant (deepest - depth) :=
  (mark_yields rfl rfl).bind fun _ _ => name_yields.bind fun _ _ => .pure fun same => Bool.noConfusion same

end Parts

/-- Values without variables are constants. -/
theorem readValue_yields (withVariables : Bool) (limit : Nat) :
    Yields depth (readValue withVariables limit) fun value =>
      withVariables = false → value.IsConstant (deepest - depth) := by
  induction limit generalizing depth with
  | zero => exact .failure
  | succ limit ih =>
    intro tokens value rest sane read
    -- The next token decides what kind of value is read.
    rw [readValue, bind_eq (peek?_eq _)] at read
    generalize first : tokens.head? = token at read
    split at read
    case h_1 name =>
      cases tokens with
      | nil => cases first
      | cons token more =>
        cases first
        rw [bind_eq (name_eq _ _)] at read
        cases read
        obtain ⟨legal, behind⟩ := sane.other (by simp)
        exact ⟨fun _ => isConstant_symbolValue legal, behind⟩
    case h_2 => exact readList_yields ih tokens value rest sane read
    case h_3 => exact readObject_yields ih tokens value rest sane read
    case h_4 =>
      cases withVariables with
      | false => cases read
      | true => exact readVariable_yields tokens value rest sane read
    case h_5 =>
      beta_reduce at read
      split at read
      case h_1 =>
        cases read
        obtain ⟨real, behind⟩ := sane.other (by simp)
        exact ⟨fun _ => .integer real.1 real.2, behind⟩
      case h_2 =>
        cases read
        exact ⟨fun _ => .number trivial, (sane.other (by simp)).2⟩
      case h_3 =>
        cases read
        exact ⟨fun _ => .text trivial, (sane.other (by simp)).2⟩
      case h_4 => cases read

end Values

section Types
variable {depth : Nat}

/-- A use of a type in at most `room` lists, none of it twice non-null. -/
inductive TypeUse.Sound : Nat → TypeUse → Prop where
  | named {room : Nat} {name : String} : isName name = true → Sound room (.named name)
  | list {room : Nat} {item : TypeUse} : Sound room item → Sound (room + 1) (.list item)
  | nonNull {room : Nat} {type : TypeUse} : Sound room type → (∀ inner, type ≠ .nonNull inner) →
      Sound room (.nonNull type)

theorem readType_yields (limit : Nat) :
    Yields depth (readType limit) (TypeUse.Sound (deepest - depth)) := by
  induction limit generalizing depth with
  | zero => exact .failure
  | succ limit ih =>
    have base : Yields depth (readBase limit) fun type =>
        type.Sound (deepest - depth) ∧ ∀ inner, type ≠ .nonNull inner := by
      refine Guarantees.bind (skip_guarantees fun rest sane => sane.opening rfl) fun opened => ?_
      cases opened with
      | false =>
        exact name_yields.bind fun name legal => .pure ⟨.named legal, nofun⟩
      | true =>
        refine .of_and fun room => .bind ih fun item => .of_and fun sound => ?_
        refine .bind (mark_guarantees fun rest sane => sane.closing rfl rfl) fun _ => ?_
        have enough : deepest - depth = deepest - (depth + 1) + 1 := by omega
        exact .pure fun tokens sane => ⟨⟨enough ▸ .list sound, nofun⟩, sane⟩
    rw [readType_succ]
    refine base.bind fun type sound => (skip_yields rfl rfl).bind fun forced _ => ?_
    cases forced with
    | false => exact .pure sound.1
    | true => exact .pure (.nonNull sound.1 sound.2)

theorem type_yields : Yields depth type (TypeUse.Sound (deepest - depth)) :=
  remaining_yields.bind fun _ _ => readType_yields _

theorem constant_yields : Yields depth constant (Value.IsConstant (deepest - depth)) :=
  remaining_yields.bind fun _ _ => (readValue_yields false _).mono fun _ constant => constant rfl

end Types

section Members
variable {depth : Nat}

theorem directives_yields : Yields depth directives fun _ => True := by
  have argument : Yields (depth + 1) argument fun _ => True :=
    name_yields.bind fun _ _ => (mark_yields rfl rfl).bind fun _ _ => remaining_yields.bind fun _ _ =>
      (readValue_yields true _).bind fun _ _ => .pure trivial
  have directive : Yields depth directive fun _ => True :=
    name_yields.bind fun _ _ => (group_yields (fun _ => argument) rfl rfl rfl).bind fun _ _ => .pure trivial
  exact remaining_yields.bind fun _ _ => (following_yields directive rfl rfl _).mono fun _ _ => trivial

structure InputDefinition.Sound (depth : Nat) (input : InputDefinition) : Prop where
  name : isName input.name = true
  type : input.type.Sound (deepest - depth)
  default : ∀ value ∈ input.default, value.IsConstant (deepest - depth)

structure FieldDefinition.Sound (field : FieldDefinition) : Prop where
  name : isName field.name = true
  arguments : ∀ argument ∈ field.arguments, argument.Sound 2
  type : field.type.Sound (deepest - 1)

theorem inputDefinition_yields : Yields depth inputDefinition (InputDefinition.Sound depth) := by
  refine description_yields.bind fun description _ => name_yields.bind fun name legal =>
    (mark_yields rfl rfl).bind fun _ _ => type_yields.bind fun type sound =>
    (skip_yields rfl rfl).bind fun given _ => ?_
  have behind (default : Option Value)
      (constant : ∀ value ∈ default, value.IsConstant (deepest - depth)) : Yields depth (do
        let _ ← directives
        return (⟨name, description, type, default⟩ : InputDefinition)) (InputDefinition.Sound depth) :=
    directives_yields.bind fun _ _ => .pure ⟨legal, sound, constant⟩
  cases given with
  | false => exact (Yields.pure nofun).bind behind
  | true =>
    have default : Yields depth (some <$> constant)
        fun default => ∀ value ∈ default, value.IsConstant (deepest - depth) := by
      rw [map_eq_pure_bind]
      exact constant_yields.bind fun value constant => .pure fun _ same => Option.some.inj same ▸ constant
    exact default.bind behind

theorem fieldDefinition_yields : Yields 1 fieldDefinition FieldDefinition.Sound :=
  description_yields.bind fun _ _ => name_yields.bind fun _ legal =>
    (group_yields (fun _ => inputDefinition_yields) rfl rfl rfl).bind fun _ sound =>
    (mark_yields rfl rfl).bind fun _ _ => type_yields.bind fun _ soundType =>
    directives_yields.bind fun _ _ => .pure ⟨legal, sound, soundType⟩

theorem enumValueDefinition_yields :
    Yields depth enumValueDefinition fun value => isName value.name = true :=
  description_yields.bind fun _ _ => name_yields.bind fun _ legal =>
    directives_yields.bind fun _ _ => .pure legal

theorem interfaces_yields : Yields depth interfaces fun names => ∀ name ∈ names, isName name = true := by
  refine (skipWord_yields _).bind fun given _ => ?_
  cases given with
  | false => exact .pure (by simp)
  | true => exact separated_yields name_yields rfl rfl

theorem unionMembers_yields :
    Yields depth unionMembers fun names => ∀ name ∈ names, isName name = true := by
  refine (skip_yields rfl rfl).bind fun given _ => ?_
  cases given with
  | false => exact .pure (by simp)
  | true => exact separated_yields name_yields rfl rfl

theorem fields_yields : Yields 0 fields fun fields => ∀ field ∈ fields, field.Sound :=
  group_yields (fun _ => fieldDefinition_yields) rfl rfl rfl

theorem enumValues_yields :
    Yields 0 enumValues fun values => ∀ value ∈ values, isName value.name = true :=
  group_yields (fun _ => enumValueDefinition_yields) rfl rfl rfl

theorem inputFields_yields : Yields 0 inputFields fun fields => ∀ field ∈ fields, field.Sound 1 :=
  group_yields (fun _ => inputDefinition_yields) rfl rfl rfl

end Members

section Definitions

structure RootNames.Sound (names : RootNames) : Prop where
  query : ∀ name ∈ names.query, isName name = true
  mutation : ∀ name ∈ names.mutation, isName name = true
  subscription : ∀ name ∈ names.subscription, isName name = true

def TypeContent.Sound : TypeContent → Prop
  | scalar => True
  | object interfaces fields | interface interfaces fields =>
    (∀ name ∈ interfaces, isName name = true) ∧ ∀ field ∈ fields, field.Sound
  | union members => ∀ name ∈ members, isName name = true
  | enumeration values => ∀ value ∈ values, isName value.name = true
  | inputObject fields => ∀ field ∈ fields, field.Sound 1

def Definition.Sound : Definition → Prop
  | roots names => names.Sound
  | type definition => isName definition.name = true ∧ definition.content.Sound
  | objectExtension _ interfaces fields =>
    (∀ name ∈ interfaces, isName name = true) ∧ ∀ field ∈ fields, field.Sound
  | inert => True

theorem rootEntry_yields {names : RootNames} (sound : names.Sound) {depth : Nat} :
    Yields depth (rootEntry names) RootNames.Sound := by
  refine name_yields.bind fun operation _ => (mark_yields rfl rfl).bind fun _ _ =>
    name_yields.bind fun name legal => ?_
  have given : ∀ other ∈ some name, isName other = true := fun _ same => Option.some.inj same ▸ legal
  split
  · split_ifs
    · exact .failure
    · exact .pure ⟨given, sound.mutation, sound.subscription⟩
  · split_ifs
    · exact .failure
    · exact .pure ⟨sound.query, given, sound.subscription⟩
  · split_ifs
    · exact .failure
    · exact .pure ⟨sound.query, sound.mutation, given⟩
  · exact .failure

theorem rootEntries_guarantees (limit : Nat) {names : RootNames} (sound : names.Sound) :
    Guarantees (Sane 1) (rootEntries limit names) fun names rest => names.Sound ∧ Sane 0 rest := by
  induction limit generalizing names with
  | zero => exact .failure
  | succ limit ih =>
    refine .bind (skip_guarantees fun rest sane => sane.closing rfl rfl) fun closed => ?_
    cases closed with
    | true => exact .pure fun tokens sane => ⟨sound, sane⟩
    | false => exact .bind (rootEntry_yields sound) fun names => .of_and fun sound => ih sound

theorem schemaBlock_yields : Yields 0 schemaBlock Definition.Sound := by
  refine directives_yields.bind fun _ _ => ?_
  refine Guarantees.bind (mark_guarantees fun rest sane => (sane.opening rfl).2) fun _ => ?_
  refine .bind remaining_yields fun limit => .of_and fun _ => ?_
  refine .bind (rootEntries_guarantees _ ⟨nofun, nofun, nofun⟩) fun names => .of_and fun sound => ?_
  exact .pure fun tokens sane => ⟨sound, sane⟩

theorem directiveDefinition_yields : Yields 0 directiveDefinition Definition.Sound := by
  have place : Yields 0 directivePlace fun _ => True := by
    refine name_yields.bind fun place _ => ?_
    split_ifs
    · exact .pure trivial
    · exact .failure
  have places : Yields 0 directivePlacesUsed fun _ => True := by
    refine peek?_yields.bind fun first _ => ?_
    have used : Yields 0 (discard (Reader.separated '|' directivePlace)) fun _ => True := by
      change Yields 0 (Reader.separated '|' directivePlace >>= fun _ => pure ()) _
      exact (separated_yields place rfl rfl).bind fun _ _ => .pure trivial
    split
    · exact used
    · exact used
    · exact .pure trivial
  exact (mark_yields rfl rfl).bind fun _ _ => name_yields.bind fun _ _ =>
    (group_yields (fun _ => inputDefinition_yields) rfl rfl rfl).bind fun _ _ =>
    (skipWord_yields _).bind fun _ _ => (word_yields _).bind fun _ _ => places.bind fun _ _ =>
    .pure trivial

theorem typeContent?_yields {keyword : String} {content : Reader (String × TypeContent)}
    (known : typeContent? keyword = some content) :
    Yields 0 content fun named => isName named.1 = true ∧ named.2.Sound := by
  unfold typeContent? at known
  split at known
  case h_1 =>
    cases known
    exact name_yields.bind fun _ legal => directives_yields.bind fun _ _ => .pure ⟨legal, trivial⟩
  case h_2 =>
    cases known
    exact name_yields.bind fun _ legal => interfaces_yields.bind fun _ interfaces =>
      directives_yields.bind fun _ _ => fields_yields.bind fun _ fields =>
      .pure ⟨legal, interfaces, fields⟩
  case h_3 =>
    cases known
    exact name_yields.bind fun _ legal => interfaces_yields.bind fun _ interfaces =>
      directives_yields.bind fun _ _ => fields_yields.bind fun _ fields =>
      .pure ⟨legal, interfaces, fields⟩
  case h_4 =>
    cases known
    exact name_yields.bind fun _ legal => directives_yields.bind fun _ _ =>
      unionMembers_yields.bind fun _ members => .pure ⟨legal, members⟩
  case h_5 =>
    cases known
    exact name_yields.bind fun _ legal => directives_yields.bind fun _ _ =>
      enumValues_yields.bind fun _ values => .pure ⟨legal, values⟩
  case h_6 =>
    cases known
    exact name_yields.bind fun _ legal => directives_yields.bind fun _ _ =>
      inputFields_yields.bind fun _ fields => .pure ⟨legal, fields⟩
  case h_7 => cases known

/-- An extension is taken if it adds something. -/
theorem yields_unless {empty : Bool} {definition : Definition} (sound : definition.Sound) :
    Yields 0 (if empty = true then failure else pure definition) Definition.Sound := by
  split_ifs
  · exact .failure
  · exact .pure sound

theorem extension_yields : Yields 0 extension Definition.Sound := by
  refine name_yields.bind fun keyword _ => name_yields.bind fun name legal => ?_
  split
  · exact directives_yields.bind fun _ _ => yields_unless trivial
  · exact interfaces_yields.bind fun _ interfaces => directives_yields.bind fun _ _ =>
      fields_yields.bind fun _ fields => yields_unless ⟨interfaces, fields⟩
  · exact interfaces_yields.bind fun _ _ => directives_yields.bind fun _ _ =>
      fields_yields.bind fun _ _ => yields_unless trivial
  · exact directives_yields.bind fun _ _ => unionMembers_yields.bind fun _ _ => yields_unless trivial
  · exact directives_yields.bind fun _ _ => enumValues_yields.bind fun _ _ => yields_unless trivial
  · exact directives_yields.bind fun _ _ => inputFields_yields.bind fun _ _ => yields_unless trivial
  · exact .failure

theorem describedDefinition_yields (description : Option String) :
    Yields 0 (describedDefinition description) Definition.Sound := by
  refine name_yields.bind fun keyword _ => ?_
  split_ifs
  · exact directiveDefinition_yields
  · split
    · rename_i content known
      exact (typeContent?_yields known).bind fun _ sound => .pure sound
    · exact .failure

theorem definition_yields : Yields 0 definition Definition.Sound := by
  refine description_yields.bind fun description _ => ?_
  cases description with
  | some text => exact describedDefinition_yields (some text)
  | none =>
    refine (skipWord_yields _).bind fun block _ => ?_
    cases block with
    | true => exact schemaBlock_yields
    | false =>
      refine (skipWord_yields _).bind fun extended _ => ?_
      cases extended with
      | true => exact extension_yields
      | false => exact describedDefinition_yields none

theorem sound_of_definitionsWithin {limit : Nat} {tokens : List Token}
    {definitions : List Definition} (sane : Sane 0 tokens)
    (read : definitionsWithin limit tokens = some definitions) :
    ∀ definition ∈ definitions, definition.Sound := by
  induction limit generalizing tokens definitions with
  | zero =>
    cases tokens with
    | nil =>
      cases read
      simp
    | cons token tokens => cases read
  | succ limit ih =>
    cases tokens with
    | nil =>
      cases read
      simp
    | cons token tokens =>
      simp only [definitionsWithin, Option.bind_eq_bind, Option.bind_eq_some_iff] at read
      obtain ⟨⟨first, rest⟩, taken, others, behind, ⟨⟩⟩ := read
      obtain ⟨sound, sane⟩ := definition_yields _ _ _ sane taken
      exact List.forall_mem_cons.mpr ⟨sound, ih sane behind⟩

theorem sound_of_read? {text : String} {definitions : List Definition}
    (read : read? text = some definitions) : ∀ definition ∈ definitions, definition.Sound := by
  simp only [read?, Option.bind_eq_bind, Option.bind_eq_some_iff] at read
  obtain ⟨tokens, found, read⟩ := read
  split_ifs at read
  exact sound_of_definitionsWithin (sane_of_tokens? found) read

end Definitions

end TypedClient.GraphQl.Definitions
