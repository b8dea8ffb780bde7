import TypedClient.Proofs.Decimal.Layout
import TypedClient.Proofs.Lists
import TypedClient.Proofs.Text.Identifiers
import TypedClient.Proofs.TypeScript.NormalForm

/-! The lexemes of a type, and that its text is cut into just these. -/

set_option autoImplicit false

namespace TypedClient.TypeScript

open Decimal (Binary64 Layout)
open Text (QuoteStyle isIdentifierStart isIdentifierChar digitsValue escapeChar escapeChars)

section Lexemes

def punctuated (separator : Char) : List (List Lexeme) → List Lexeme
  | [] => []
  | [group] => group
  | group :: rest => group ++ .mark separator :: punctuated separator rest

def Literal.lexeme : Literal → Lexeme
  | .string value => .text value
  | .integer value => .number (nearest? (value < 0) value.natAbs 1)
  | .number value => .number (some (if value.isZero then Binary64.zero false else value))
  | .infinity _ => .number none
  | .notANumber => .number none
  | .boolean value => .word (if value then "true" else "false")
  | .null => .word "null"

def keyLexemes (name : String) (optional : Bool) : List Lexeme :=
  .text name :: if optional then [.mark '?', .mark ':'] else [.mark ':']

mutual

def TypeExpr.lexemes : TypeExpr → List Lexeme
  | .scalar kind => [.word kind.text]
  | .array item => .word "Array" :: .mark '<' :: (item.lexemes ++ [.mark '>'])
  | .object fields =>
    .mark '\x7b' :: (punctuated ';' (TypeExpr.fieldLexemes fields) ++ [.mark '\x7d'])
  | .reference name => [.word name]
  | .union members => punctuated '|' (TypeExpr.lexemeLists members)
  | .intersection members => punctuated '&' (TypeExpr.operandLists members)
  | .literal value => [value.lexeme]
  | .record values =>
    .word "Record" :: .mark '<' :: .word "string" :: .mark ',' :: (values.lexemes ++ [.mark '>'])
  | .generic name arguments =>
    .word name :: .mark '<' :: (punctuated ',' (TypeExpr.lexemeLists arguments) ++ [.mark '>'])

def TypeExpr.lexemeLists : List TypeExpr → List (List Lexeme)
  | [] => []
  | type :: rest => type.lexemes :: TypeExpr.lexemeLists rest

def TypeExpr.operandLists : List TypeExpr → List (List Lexeme)
  | [] => []
  | type :: rest =>
    (if type.isUnion then .mark '(' :: (type.lexemes ++ [.mark ')']) else type.lexemes) ::
      TypeExpr.operandLists rest

def TypeExpr.fieldLexemes : List Field → List (List Lexeme)
  | [] => []
  | ⟨name, type, optional⟩ :: rest =>
    (keyLexemes name optional ++ type.lexemes) :: TypeExpr.fieldLexemes rest

end

namespace TypeExpr

/-- A member of an intersection: a union is in parentheses. -/
def operandText (quotes : QuoteStyle) (type : TypeExpr) : String :=
  if type.isUnion then "(" ++ type.text quotes ++ ")" else type.text quotes

def operandLexemes (type : TypeExpr) : List Lexeme :=
  if type.isUnion then .mark '(' :: (type.lexemes ++ [.mark ')']) else type.lexemes

def fieldText (quotes : QuoteStyle) (field : Field) : String :=
  memberKey quotes field.name field.optional ++ ": " ++ field.type.text quotes

@[simp] theorem texts_eq_map (quotes : QuoteStyle) (types : List TypeExpr) :
    texts quotes types = types.map (text quotes) := by
  induction types with
  | nil => rfl
  | cons type rest ih => rw [texts, ih, List.map_cons]

@[simp] theorem operandTexts_eq_map (quotes : QuoteStyle) (types : List TypeExpr) :
    operandTexts quotes types = types.map (operandText quotes) := by
  induction types with
  | nil => rfl
  | cons type rest ih => rw [operandTexts, ih, List.map_cons, operandText]

@[simp] theorem fieldTexts_eq_map (quotes : QuoteStyle) (fields : List Field) :
    fieldTexts quotes fields = fields.map (fieldText quotes) := by
  induction fields with
  | nil => rfl
  | cons field rest ih => rw [fieldTexts, ih, List.map_cons, fieldText]

@[simp] theorem lexemeLists_eq_map (types : List TypeExpr) :
    lexemeLists types = types.map lexemes := by
  induction types with
  | nil => rfl
  | cons type rest ih => rw [lexemeLists, ih, List.map_cons]

@[simp] theorem operandLists_eq_map (types : List TypeExpr) :
    operandLists types = types.map operandLexemes := by
  induction types with
  | nil => rfl
  | cons type rest ih => rw [operandLists, ih, List.map_cons, operandLexemes]

@[simp] theorem fieldLexemes_eq_map (fields : List Field) :
    fieldLexemes fields =
      fields.map fun field => keyLexemes field.name field.optional ++ field.type.lexemes := by
  induction fields with
  | nil => rfl
  | cons field rest ih => rw [fieldLexemes, ih, List.map_cons]

end TypeExpr

end Lexemes

namespace Lexing

def advance? (state : Lexing) : List Char → Option (List Lexeme × Lexing)
  | [] => some ([], state)
  | c :: rest => do
    let (read, next) ← state.step? c
    let (more, last) ← next.advance? rest
    return (read ++ more, last)

variable {state next last : Lexing} {text rest : List Char} {read more : List Lexeme}

theorem advance?_cons {c : Char} (first : state.step? c = some (read, next))
    (others : next.advance? rest = some (more, last)) :
    state.advance? (c :: rest) = some (read ++ more, last) := by
  simp [advance?, first, others]

theorem advance?_append (first : state.advance? text = some (read, next))
    (others : next.advance? rest = some (more, last)) :
    state.advance? (text ++ rest) = some (read ++ more, last) := by
  induction text generalizing state read with
  | nil =>
    obtain ⟨rfl, rfl⟩ : [] = read ∧ state = next := by simpa [advance?] using first
    exact others
  | cons c text ih =>
    simp only [advance?, Option.bind_eq_bind, Option.bind_eq_some_iff, Prod.exists] at first
    obtain ⟨begun, middle, step, remaining, end', found, result⟩ := first
    cases result
    rw [List.append_assoc]
    exact advance?_cons step (ih found)

theorem run?_append (first : state.advance? text = some (read, next)) :
    state.run? (text ++ rest) = (next.run? rest).map (read ++ ·) := by
  induction text generalizing state read with
  | nil =>
    obtain ⟨rfl, rfl⟩ : [] = read ∧ state = next := by simpa [advance?] using first
    simp
  | cons c text ih =>
    simp only [advance?, Option.bind_eq_bind, Option.bind_eq_some_iff, Prod.exists] at first
    obtain ⟨begun, middle, step, remaining, end', found, result⟩ := first
    cases result
    simp only [List.cons_append, run?, step, Option.bind_eq_bind, Option.bind_some, ih found]
    cases next.run? rest <;> simp

end Lexing

def ends : List Char → Bool
  | [] => true
  | c :: _ => !isIdentifierChar c && c != '.'

/-- The text is cut into these lexemes if nothing behind it runs together with it. -/
def Lexes (text : List Char) (lexemes : List Lexeme) : Prop :=
  ∀ rest, ends rest = true →
    Lexing.between.run? (text ++ rest) = (Lexing.between.run? rest).map (lexemes ++ ·)

section Lexes
variable {lead text rest : List Char} {first lexemes more : List Lexeme}

theorem Lexes.of_advance (advance : Lexing.between.advance? text = some (lexemes, .between)) :
    Lexes text lexemes :=
  fun _ _ => Lexing.run?_append advance

theorem Lexes.behind (advance : Lexing.between.advance? lead = some (first, .between))
    (lexes : Lexes text lexemes) : Lexes (lead ++ text) (first ++ lexemes) := by
  intro rest ended
  rw [List.append_assoc, Lexing.run?_append advance, lexes rest ended, Option.map_map]
  congr 1
  funext read
  exact (List.append_assoc ..).symm

theorem Lexes.append (lexes : Lexes text lexemes) (others : Lexes rest more)
    (apart : ends rest = true) : Lexes (text ++ rest) (lexemes ++ more) := by
  intro behind ended
  have ended' : ends (rest ++ behind) = true := by
    cases rest with
    | nil => exact ended
    | cons c rest => exact apart
  rw [List.append_assoc, lexes _ ended', others behind ended, Option.map_map]
  congr 1
  funext read
  exact (List.append_assoc ..).symm

/-- The machine stands in a lexeme that the next character ends. -/
theorem Lexes.of_turn {state : Lexing} (advance : Lexing.between.advance? text = some ([], state))
    (finish : state.finish? = some lexemes)
    (turn : ∀ c, ends [c] = true → state.step? c = state.turn? c) : Lexes text lexemes := by
  intro rest ended
  rw [Lexing.run?_append advance]
  cases rest with
  | nil =>
    have stops : Lexing.between.finish? = some [] := rfl
    simp [Lexing.run?, finish, stops]
  | cons c rest =>
    have start : Lexing.between.step? c = Lexing.start? c := rfl
    simp only [Lexing.run?, turn c ended, start, Lexing.turn?, finish, Option.bind_eq_bind,
      Option.bind_some]
    cases Lexing.start? c with
    | none => rfl
    | some started => cases started.2.run? rest <;> simp

theorem advance?_word {read : List Char} (usable : Text.Usable text) :
    (Lexing.word read).advance? text = some ([], .word (read ++ text)) := by
  induction text generalizing read with
  | nil => simp [Lexing.advance?]
  | cons c rest ih =>
    obtain ⟨first, others⟩ := Text.usable_cons.mp usable
    have step : (Lexing.word read).step? c = some ([], .word (read ++ [c])) := by
      simp [Lexing.step?, first]
    simpa using Lexing.advance?_cons step (ih others)

theorem Lexes.word {name : String} (legal : Text.isIdentifier name = true) :
    Lexes name.toList [.word name] := by
  unfold Text.isIdentifier at legal
  cases begins : name.toList with
  | nil => rw [begins] at legal; cases legal
  | cons c rest =>
    rw [begins] at legal
    obtain ⟨first, others⟩ := Text.isIdentifierList_iff.mp legal
    have plain : isBlank c = false ∧ isMark c = false ∧ c ≠ '\'' ∧ c ≠ '"' :=
      Text.identifierChar_cases
        (motive := fun c => isIdentifierStart c = true →
          isBlank c = false ∧ isMark c = false ∧ c ≠ '\'' ∧ c ≠ '"')
        (by decide) (Text.isIdentifierChar_of_start first) first
    have start : Lexing.between.step? c = some ([], .word [c]) := by
      simp [Lexing.step?, Lexing.start?, plain, first]
    refine Lexes.of_turn (Lexing.advance?_cons start (advance?_word others)) ?_ ?_
    · simp [Lexing.finish?, ← begins]
    · intro c ended
      have other : isIdentifierChar c = false := by
        simp only [ends, Bool.and_eq_true, Bool.not_eq_true'] at ended
        exact ended.1
      simp [Lexing.step?, other]

end Lexes

section Quoted

theorem delimiter_of_step {style : QuoteStyle} {c : Char} (read : List Char) :
    (Lexing.text style.delimiter read).advance? (escapeChar style c) =
      some ([], .text style.delimiter (read ++ [c])) := by
  have other : style.delimiter ≠ '\\' := by cases style <;> decide
  unfold escapeChar
  split_ifs with backslash feed carriage delimiter
  · subst backslash
    cases style <;> rfl
  · subst feed
    cases style <;> rfl
  · subst carriage
    cases style <;> rfl
  · subst delimiter
    cases style <;> rfl
  · simp [Lexing.advance?, Lexing.step?, backslash, feed, carriage, delimiter]

theorem advance?_escapeChars {style : QuoteStyle} (text read : List Char) :
    (Lexing.text style.delimiter read).advance? (escapeChars style text) =
      some ([], .text style.delimiter (read ++ text)) := by
  induction text generalizing read with
  | nil => simp [Lexing.advance?]
  | cons c rest ih =>
    rw [Text.escapeChars_cons]
    simpa using Lexing.advance?_append (delimiter_of_step read) (ih (read ++ [c]))

/-- A quoted text is a lexeme by itself, whatever is in it. -/
theorem advance?_quote (style : QuoteStyle) (value : String) :
    Lexing.between.advance? (Text.quote style value).toList = some ([.text value], .between) := by
  have opens : Lexing.between.step? style.delimiter = some ([], .text style.delimiter []) := by
    cases style <;> rfl
  have closes : (Lexing.text style.delimiter value.toList).advance? [style.delimiter] =
      some ([.text value], .between) := by
    simp [Lexing.advance?, Lexing.step?]
  rw [Text.toList_quote, List.cons_append]
  exact Lexing.advance?_cons opens
    (Lexing.advance?_append (advance?_escapeChars value.toList []) closes)

end Quoted

section Numbers
variable {text whole fraction : List Char}

def inNumber (c : Char) : Bool := c.isDigit || c == '.'

theorem advance?_number {read : List Char} (inside : ∀ c ∈ text, inNumber c = true) :
    (Lexing.number read).advance? text = some ([], .number (read ++ text)) := by
  induction text generalizing read with
  | nil => simp [Lexing.advance?]
  | cons c rest ih =>
    obtain ⟨first, others⟩ := List.forall_mem_cons.mp inside
    have step : (Lexing.number read).step? c = some ([], .number (read ++ [c])) := by
      rw [Lexing.step?, if_pos (by simpa [inNumber] using first)]
    simpa using Lexing.advance?_cons step (ih others)

/-- A digit or a sign begins a number. -/
theorem step?_number {c : Char} (begins : c.isDigit = true ∨ c = '-') :
    Lexing.between.step? c = some ([], .number [c]) := by
  rcases begins with digit | rfl
  · have plain : isBlank c = false ∧ isMark c = false ∧ c ≠ '\'' ∧ c ≠ '"' ∧
        isIdentifierStart c = false :=
      Text.identifierChar_cases
        (motive := fun c => c.isDigit = true →
          isBlank c = false ∧ isMark c = false ∧ c ≠ '\'' ∧ c ≠ '"' ∧ isIdentifierStart c = false)
        (by decide) (by simp [isIdentifierChar, Char.isAlphanum, digit]) digit
    simp [Lexing.step?, Lexing.start?, plain, digit]
  · rfl

theorem unsignedOf?_pointed (negative : Bool) (nonempty : whole ≠ [])
    (wholeDigits : ∀ c ∈ whole, c.isDigit = true) (fractionDigits : ∀ c ∈ fraction, c.isDigit = true) :
    unsignedOf? negative (Decimal.pointed whole fraction) =
      some (nearest? negative (digitsValue (whole ++ fraction)) (10 ^ fraction.length)) := by
  have taken := takeWhile_append_stop (if fraction = [] then [] else '.' :: fraction)
    wholeDigits (by split_ifs <;> simp)
  have allDigits : fraction.all Char.isDigit = true := List.all_eq_true.mpr fractionDigits
  unfold unsignedOf? Decimal.pointed
  rw [taken.1, taken.2]
  by_cases empty : fraction = []
  · simp [empty, nonempty]
  · simp [empty, nonempty, allDigits]

/-- The sign and the digits on both sides of the point are read as what they are. -/
theorem numberOf?_pointed (negative : Bool) (nonempty : whole ≠ [])
    (wholeDigits : ∀ c ∈ whole, c.isDigit = true) (fractionDigits : ∀ c ∈ fraction, c.isDigit = true) :
    numberOf? ((if negative then ['-'] else []) ++ Decimal.pointed whole fraction) =
      some (nearest? negative (digitsValue (whole ++ fraction)) (10 ^ fraction.length)) := by
  rw [← unsignedOf?_pointed negative nonempty wholeDigits fractionDigits]
  cases negative with
  | true => rfl
  | false =>
    obtain ⟨first, others, rfl⟩ := List.exists_cons_of_ne_nil nonempty
    have unsigned : first ≠ '-' := by
      rintro rfl
      exact absurd (wholeDigits '-' List.mem_cons_self) (by decide)
    simp [Decimal.pointed, numberOf?, unsigned]

theorem Lexes.number (negative : Bool) (nonempty : whole ≠ [])
    (wholeDigits : ∀ c ∈ whole, c.isDigit = true) (fractionDigits : ∀ c ∈ fraction, c.isDigit = true) :
    Lexes ((if negative then ['-'] else []) ++ Decimal.pointed whole fraction)
      [.number (nearest? negative (digitsValue (whole ++ fraction)) (10 ^ fraction.length))] := by
  have value := numberOf?_pointed negative nonempty wholeDigits fractionDigits
  obtain ⟨c, rest, begins, isFirst, inside⟩ :=
    Decimal.exists_first negative nonempty wholeDigits fractionDigits
  have others : ∀ c ∈ rest, inNumber c = true := by simpa [inNumber] using inside
  rw [begins] at value ⊢
  refine Lexes.of_turn (Lexing.advance?_cons (step?_number isFirst) (advance?_number others)) ?_ ?_
  · simp [Lexing.finish?, value]
  · intro c ended
    have other : inNumber c = false := by
      simp only [ends, isIdentifierChar, Char.isAlphanum, bne, Bool.and_eq_true, Bool.not_eq_true',
        Bool.or_eq_false_iff] at ended
      simp [inNumber, ended]
    simp only [inNumber] at other
    simp [Lexing.step?, other]

end Numbers

theorem Literal.lexes (quotes : QuoteStyle) {value : Literal} (finite : value.isFinite = true) :
    Lexes (value.text quotes).toList [value.lexeme] := by
  cases value with
  | infinity negative => cases finite
  | notANumber => cases finite
  | string value => exact .of_advance (advance?_quote quotes value)
  | integer value =>
    rw [Literal.text, Text.toList_intToString, Literal.lexeme]
    have digits : ∀ c ∈ Nat.toDigits 10 value.natAbs, c.isDigit = true :=
      fun c member => Text.isDigit_of_mem_toDigits member
    have nonempty : Nat.toDigits 10 value.natAbs ≠ [] :=
      List.ne_nil_of_length_pos Nat.length_toDigits_pos
    simpa [Decimal.pointed, Text.digitsValue_toDigits] using
      @Lexes.number _ [] (decide (value < 0)) nonempty digits (by simp)
  | number value =>
    obtain ⟨whole, fraction, written, text⟩ := Decimal.exists_digits value
    have lexes := Lexes.number value.negative written.nonempty written.wholeDigits written.fractionDigits
    rw [← text] at lexes
    have same : nearest? value.negative (digitsValue (whole ++ fraction)) (10 ^ fraction.length) =
        some (if value.isZero then Binary64.zero false else value) := by
      -- A negative zero is read as the other one.
      by_cases zero : value.mantissa = 0
      · have none := written.value
        rw [Decimal.shortest_of_mantissa_zero zero] at none
        have none : digitsValue (whole ++ fraction) = 0 := by
          simpa [Decimal.Scaled.toRat] using none
        rw [none]
        simp [nearest?, Binary64.ofRatio?, Decimal.roundRatio, Decimal.Representable,
          Binary64.isZero, zero]
      · rw [nearest?, written.ofRatio? (Decimal.covers_shortest zero)
          (Decimal.shortest_digits_ne_zero zero)]
        rfl
    rw [same] at lexes
    exact lexes
  | boolean value =>
    cases value
    · exact @Lexes.word "false" (by decide)
    · exact @Lexes.word "true" (by decide)
  | null => exact @Lexes.word "null" (by decide)

section Types
variable {α : Type} {items : List α} {textOf : α → String} {lexemesOf : α → List Lexeme}
  {separator : String} {mark : Char}

/-- The separator is a mark between blanks. -/
theorem Lexes.join
    (between : Lexing.between.advance? separator.toList = some ([.mark mark], .between))
    (apart : ∀ rest, ends (separator.toList ++ rest) = true)
    (each : ∀ item ∈ items, Lexes (textOf item).toList (lexemesOf item)) :
    Lexes (Text.join separator (items.map textOf)).toList (punctuated mark (items.map lexemesOf)) := by
  induction items with
  | nil => exact .of_advance rfl
  | cons item rest ih =>
    obtain ⟨first, others⟩ := List.forall_mem_cons.mp each
    cases rest with
    | nil => exact first
    | cons next rest =>
      rw [List.map_cons, List.map_cons, Text.join_cons_cons, String.toList_append,
        String.toList_append, List.append_assoc]
      exact first.append (.behind between (ih others)) (apart _)

theorem lexes_key (quotes : QuoteStyle) (name : String) (optional : Bool) :
    Lexing.between.advance? ((memberKey quotes name optional).toList ++ [':', ' ']) =
      some (keyLexemes name optional, .between) := by
  rw [memberKey, String.toList_append, List.append_assoc]
  have mark : Lexing.between.advance? ((if optional then "?" else "").toList ++ [':', ' ']) =
      some (if optional then [.mark '?', .mark ':'] else [.mark ':'], .between) := by
    cases optional <;> rfl
  exact Lexing.advance?_append (advance?_quote quotes name) mark

namespace TypeExpr

section Cases
variable {quotes : QuoteStyle} {type : TypeExpr} {types : List TypeExpr}

theorem lexes_closing : Lexes ">".toList [.mark '>'] := .of_advance rfl

theorem lexes_array (inside : Lexes (type.text quotes).toList type.lexemes) :
    Lexes ((array type).text quotes).toList (array type).lexemes := by
  have opens : Lexing.between.advance? "Array<".toList =
      some ([.word "Array", .mark '<'], .between) := rfl
  simp only [text, String.toList_append, List.append_assoc]
  exact .behind opens (inside.append lexes_closing rfl)

theorem lexes_record (inside : Lexes (type.text quotes).toList type.lexemes) :
    Lexes ((record type).text quotes).toList (record type).lexemes := by
  have opens : Lexing.between.advance? "Record<string, ".toList =
      some ([.word "Record", .mark '<', .word "string", .mark ','], .between) := rfl
  simp only [text, String.toList_append, List.append_assoc]
  exact .behind opens (inside.append lexes_closing rfl)

theorem lexes_object {fields : List Field}
    (inside : ∀ field ∈ fields, Lexes (field.type.text quotes).toList field.type.lexemes) :
    Lexes ((object fields).text quotes).toList (object fields).lexemes := by
  cases fields with
  | nil =>
    have empty : Lexing.between.advance? "\x7b\x7d".toList =
        some ([.mark '\x7b', .mark '\x7d'], .between) := rfl
    exact .of_advance empty
  | cons field rest =>
    have opens : Lexing.between.advance? "\x7b ".toList = some ([.mark '\x7b'], .between) := rfl
    have closes : Lexes " \x7d".toList [.mark '\x7d'] := .of_advance rfl
    have members : ∀ member ∈ field :: rest, Lexes (fieldText quotes member).toList
        (keyLexemes member.name member.optional ++ member.type.lexemes) := by
      intro member among
      rw [fieldText, String.toList_append, String.toList_append]
      exact .behind (lexes_key quotes _ _) (inside member among)
    simp only [text, fieldTexts_eq_map, String.toList_append, List.append_assoc]
    rw [lexemes, fieldLexemes_eq_map]
    exact .behind opens ((Lexes.join rfl (fun _ => rfl) members).append closes rfl)

/-- A union in an intersection stands in parentheses. -/
theorem lexes_operand (inside : Lexes (type.text quotes).toList type.lexemes) :
    Lexes (operandText quotes type).toList type.operandLexemes := by
  have opens : Lexing.between.advance? "(".toList = some ([.mark '('], .between) := rfl
  have closes : Lexes ")".toList [.mark ')'] := .of_advance rfl
  unfold operandText operandLexemes
  split_ifs
  · rw [String.toList_append, String.toList_append, List.append_assoc]
    exact .behind opens (inside.append closes rfl)
  · exact inside

theorem lexes_generic {name : String} (legal : Text.isIdentifier name = true)
    (inside : ∀ argument ∈ types, Lexes (argument.text quotes).toList argument.lexemes) :
    Lexes ((generic name types).text quotes).toList (generic name types).lexemes := by
  have opens : Lexing.between.advance? "<".toList = some ([.mark '<'], .between) := rfl
  have arguments : Lexes (Text.join ", " (types.map (text quotes))).toList
      (punctuated ',' (types.map lexemes)) := .join rfl (fun _ => rfl) inside
  simp only [text, texts_eq_map, String.toList_append, List.append_assoc]
  rw [lexemes, lexemeLists_eq_map]
  exact (Lexes.word legal).append (.behind opens (arguments.append lexes_closing rfl)) rfl

end Cases

theorem lexes_text {type : TypeExpr} (plain : type.Plain) (quotes : QuoteStyle) :
    Lexes (type.text quotes).toList type.lexemes := by
  induction type using TypeExpr.induction with
  | scalar kind =>
    have legal : Text.isIdentifier kind.text = true := by cases kind <;> decide
    exact Lexes.word legal
  | array item ih =>
    cases plain with
    | array plain => exact lexes_array (ih plain)
  | object fields ih =>
    cases plain with
    | object plain => exact lexes_object fun field member => ih field member (plain field member)
  | reference name =>
    cases plain with
    | reference legal => exact Lexes.word (Bool.and_eq_true_iff.mp legal).1
  | union members ih =>
    cases plain with
    | union _ plain =>
      rw [text, lexemes, texts_eq_map, lexemeLists_eq_map]
      exact .join rfl (fun _ => rfl) fun member inside => ih member inside (plain member inside)
  | intersection members ih =>
    cases plain with
    | intersection _ plain =>
      rw [text, lexemes, operandTexts_eq_map, operandLists_eq_map]
      exact .join rfl (fun _ => rfl) fun member inside => lexes_operand (ih member inside (plain member inside))
  | literal value =>
    cases plain with
    | literal finite => exact Literal.lexes quotes finite
  | record values ih =>
    cases plain with
    | record plain => exact lexes_record (ih plain)
  | generic name arguments ih =>
    cases plain with
    | generic legal _ plain =>
      exact lexes_generic (Bool.and_eq_true_iff.mp legal).1 fun argument member =>
        ih argument member (plain argument member)

end TypeExpr

end Types

end TypedClient.TypeScript
