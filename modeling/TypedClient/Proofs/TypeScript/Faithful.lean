import TypedClient.Proofs.TypeScript.TypeText

/-! The text of a type is read back to its normal form.

A type is read on three levels. Its text as a member of an intersection is a list of operands,
several if the type is an intersection itself; its text as a member of a union is a list of
intersections, several if the type is a union. What these lists are put together to does not
depend on how the type groups them, since normal forms are flat.
-/

set_option autoImplicit false

namespace TypedClient.TypeScript

open Text (QuoteStyle)

namespace TypeSyntax

section Levels
variable {α : Type} {separator : Char} {item : List Lexeme → Option (α × List Lexeme)}
  {marks : List Char} {lexemes more : List Lexeme} {value : α} {values others : List α}

def Stops (marks : List Char) (rest : List Lexeme) : Prop :=
  ∀ c ∈ marks, rest.head? ≠ some (.mark c)

theorem stops_mark {c : Char} {rest : List Lexeme} (other : c ∉ marks) :
    Stops marks (.mark c :: rest) := by
  intro mark member same
  cases same
  exact other member

/-- The lexemes are read as the value, up to where none of the marks comes next. -/
def Reads (item : List Lexeme → Option (α × List Lexeme)) (marks : List Char)
    (lexemes : List Lexeme) (value : α) : Prop :=
  ∀ rest, Stops marks rest → item (lexemes ++ rest) = some (value, rest)

structure Spells (separator : Char) (item : List Lexeme → Option (α × List Lexeme))
    (marks : List Char) (lexemes : List Lexeme) (values : List α) : Prop where
  nonempty : values ≠ []
  bound : values.length ≤ lexemes.length
  reads : ∀ limit rest, Stops marks rest →
    separated separator item (values.length + limit) (lexemes ++ rest) =
      (behind separator (separated separator item limit) rest).map
        fun (others, rest) => (values ++ others, rest)

theorem Spells.single (nonempty : lexemes ≠ []) (reads : Reads item marks lexemes value) :
    Spells separator item marks lexemes [value] := by
  refine ⟨List.cons_ne_nil _ _, List.length_pos_of_ne_nil nonempty, ?_⟩
  intro limit rest stops
  rw [List.length_singleton, Nat.add_comm 1 limit, separated, reads rest stops]
  simp only [Option.bind_eq_bind, Option.bind_some]
  cases behind separator (separated separator item limit) rest <;> rfl

theorem behind_separator (again : List Lexeme → Option (List α × List Lexeme))
    (rest : List Lexeme) : behind separator again (.mark separator :: rest) = again rest := by
  simp [behind]

theorem behind_other {again : List Lexeme → Option (List α × List Lexeme)} {rest : List Lexeme}
    (other : rest.head? ≠ some (.mark separator)) : behind separator again rest = some ([], rest) := by
  unfold behind
  split
  case h_1 c rest =>
    have different : c ≠ separator := by
      rintro rfl
      exact other rfl
    rw [if_neg different]
  case h_2 => rfl

theorem Spells.append (unstopped : separator ∉ marks)
    (first : Spells separator item marks lexemes values)
    (second : Spells separator item marks more others) :
    Spells separator item marks (lexemes ++ .mark separator :: more) (values ++ others) := by
  have enough := first.bound
  have enough' := second.bound
  refine ⟨List.append_ne_nil_of_left_ne_nil first.nonempty _, ?_, ?_⟩
  · simp only [List.length_append, List.length_cons]
    omega
  intro limit rest stops
  rw [List.length_append, Nat.add_assoc, List.append_assoc, List.cons_append,
    first.reads _ _ (stops_mark unstopped), behind_separator, second.reads limit rest stops,
    Option.map_map]
  congr 1
  funext read
  simp

theorem Spells.punctuated {ι : Type} {items : List ι} {lexemesOf : ι → List Lexeme}
    {valuesOf : ι → List α} (unstopped : separator ∉ marks) (nonempty : items ≠ [])
    (each : ∀ one ∈ items, Spells separator item marks (lexemesOf one) (valuesOf one)) :
    Spells separator item marks (punctuated separator (items.map lexemesOf))
      (items.flatMap valuesOf) := by
  induction items with
  | nil => exact absurd rfl nonempty
  | cons one rest ih =>
    obtain ⟨first, others⟩ := List.forall_mem_cons.mp each
    cases rest with
    | nil => simpa [TypeScript.punctuated] using first
    | cons next rest => exact first.append unstopped (ih (List.cons_ne_nil _ _) others)

/-- A list ends where neither a mark of its items nor its separator comes next. -/
theorem Spells.separated (spells : Spells separator item marks lexemes values)
    {rest : List Lexeme} (stops : Stops (separator :: marks) rest) :
    separated separator item (lexemes ++ rest).length (lexemes ++ rest) = some (values, rest) := by
  obtain ⟨other, stops⟩ := List.forall_mem_cons.mp stops
  obtain ⟨limit, enough⟩ : ∃ limit, (lexemes ++ rest).length = values.length + limit :=
    Nat.exists_eq_add_of_le (by have := spells.bound; simp only [List.length_append]; omega)
  rw [enough, spells.reads limit rest stops, behind_other other]
  simp

variable {operand : List Lexeme → Option (TypeSyntax × List Lexeme)} {types : List TypeSyntax}

theorem Spells.readIntersection (spells : Spells '&' operand marks lexemes types) :
    Reads (readIntersection operand) ('&' :: marks) lexemes (allOf types) := by
  intro rest stops
  rw [TypeSyntax.readIntersection, spells.separated stops, Option.map_some]

theorem Spells.readUnion (spells : Spells '|' (TypeSyntax.readIntersection operand) marks lexemes types) :
    Reads (readUnion operand) ('|' :: marks) lexemes (anyOf types) := by
  intro rest stops
  rw [TypeSyntax.readUnion, spells.separated stops, Option.map_some]

theorem Spells.lexemes_ne_nil (spells : Spells separator item marks lexemes values) :
    lexemes ≠ [] :=
  List.ne_nil_of_length_pos
    (Nat.lt_of_lt_of_le (List.length_pos_of_ne_nil spells.nonempty) spells.bound)

def typeMarks : List Char := ['|', '&', '<']

variable {limit : ℕ} {type : TypeSyntax} {types : List TypeSyntax}

theorem readOperand_word (word : String) :
    Reads (readOperand (limit + 1)) ['<'] [.word word] ((keyword? word).getD (named word [])) := by
  intro rest stops
  cases rest with
  | nil => rfl
  | cons first rest =>
    cases first with
    | mark c =>
      have other : c ≠ '<' := by
        rintro rfl
        exact stops '<' (List.mem_singleton_self _) rfl
      simp [readOperand, other]
    | _ => rfl

theorem readOperand_parentheses
    (reads : Reads (TypeSyntax.readUnion (readOperand limit)) typeMarks lexemes type) :
    Reads (readOperand (limit + 1)) ['<'] (.mark '(' :: (lexemes ++ [.mark ')'])) type := by
  intro rest _
  rw [List.cons_append, List.append_assoc, List.singleton_append, readOperand,
    reads _ (stops_mark (by decide))]
  rfl

theorem readOperand_generic {name : String} (plain : keyword? name = none)
    (spells : Spells ',' (TypeSyntax.readUnion (readOperand limit)) typeMarks lexemes types) :
    Reads (readOperand (limit + 1)) ['<'] (.word name :: .mark '<' :: (lexemes ++ [.mark '>']))
      (named name types) := by
  intro rest _
  have stops : Stops (',' :: typeMarks) (.mark '>' :: rest) := stops_mark (by decide)
  have read := spells.separated stops
  simp only [List.cons_append, List.append_assoc, List.nil_append, readOperand, plain,
    Option.isSome_none, Bool.false_eq_true, if_false, read]
  rfl

theorem readMember_key {name : String} {optional : Bool}
    {reader : List Lexeme → Option (TypeSyntax × List Lexeme)}
    (reads : Reads reader marks lexemes type) :
    Reads (readMember reader) marks (keyLexemes name optional ++ lexemes) ⟨name, type, optional⟩ := by
  intro rest stops
  cases optional
  · change (reader (lexemes ++ rest)).map _ = _
    rw [reads rest stops]
    rfl
  · change (reader (lexemes ++ rest)).map _ = _
    rw [reads rest stops]
    rfl

theorem readOperand_object {members : List (Property TypeSyntax)}
    (other : lexemes.head? ≠ some (.mark '\x7d'))
    (spells : Spells ';' (readMember (TypeSyntax.readUnion (readOperand limit))) typeMarks lexemes members) :
    Reads (readOperand (limit + 1)) ['<'] (.mark '\x7b' :: (lexemes ++ [.mark '\x7d']))
      (object members) := by
  intro rest _
  have stops : Stops (';' :: typeMarks) (.mark '\x7d' :: rest) := stops_mark (by decide)
  have read := spells.separated stops
  obtain ⟨first, more, rfl⟩ := List.exists_cons_of_ne_nil spells.lexemes_ne_nil
  simp only [List.cons_append, List.append_assoc, List.nil_append] at read ⊢
  rw [readOperand]
  · rw [read]
    rfl
  · rintro _ ⟨rfl, _⟩
    exact other rfl

end Levels

end TypeSyntax

theorem length_le_punctuated {ι : Type} (separator : Char) (lexemesOf : ι → List Lexeme)
    {items : List ι} {item : ι} (member : item ∈ items) :
    (lexemesOf item).length ≤ (punctuated separator (items.map lexemesOf)).length := by
  induction items with
  | nil => cases member
  | cons first rest ih =>
    cases rest with
    | nil =>
      rw [List.mem_singleton.mp member]
      exact Nat.le_refl _
    | cons next rest =>
      simp only [List.map_cons, punctuated, List.length_append, List.length_cons] at ih ⊢
      rcases List.mem_cons.mp member with rfl | inside
      · omega
      · have := ih inside
        omega

namespace TypeExpr

open TypeSyntax (Reads Spells readIntersection readUnion readOperand readMember typeMarks)

/-- The text is read to the normal form, as a member of a union and of an intersection. -/
structure Readable (type : TypeExpr) : Prop where
  alternatives : ∀ limit, type.lexemes.length ≤ limit → ∃ types,
    Spells '|' (readIntersection (readOperand limit)) ['&', '<'] type.lexemes types ∧
      types.flatMap TypeSyntax.alternatives = type.normal.alternatives
  parts : ∀ limit, type.operandLexemes.length ≤ limit → ∃ types,
    Spells '&' (readOperand limit) ['<'] type.operandLexemes types ∧
      types.flatMap TypeSyntax.parts = type.normal.parts

section Readable
variable {type : TypeExpr} {limit : ℕ}

theorem anyOf_eq_normal {types : List TypeSyntax}
    (same : types.flatMap TypeSyntax.alternatives = type.normal.alternatives) :
    TypeSyntax.anyOf types = type.normal := by
  have single := type.flat_normal.anyOf_singleton
  unfold TypeSyntax.anyOf at single ⊢
  rwa [same, ← List.flatMap_singleton (f := TypeSyntax.alternatives)]

theorem allOf_eq_normal {types : List TypeSyntax}
    (same : types.flatMap TypeSyntax.parts = type.normal.parts) :
    TypeSyntax.allOf types = type.normal := by
  have single := type.flat_normal.allOf_singleton
  unfold TypeSyntax.allOf at single ⊢
  rwa [same, ← List.flatMap_singleton (f := TypeSyntax.parts)]

theorem Readable.reads (readable : type.Readable) (enough : type.lexemes.length ≤ limit) :
    Reads (readUnion (readOperand limit)) typeMarks type.lexemes type.normal := by
  obtain ⟨types, spells, same⟩ := readable.alternatives limit enough
  rw [← anyOf_eq_normal same]
  exact spells.readUnion

theorem Readable.lexemes_ne_nil (readable : type.Readable) : type.lexemes ≠ [] := by
  obtain ⟨types, spells, -⟩ := readable.alternatives _ (Nat.le_refl _)
  exact spells.lexemes_ne_nil

theorem Readable.of_alternatives (union : type.isUnion = true)
    (alternatives : ∀ limit, type.lexemes.length ≤ limit → ∃ types,
      Spells '|' (readIntersection (readOperand limit)) ['&', '<'] type.lexemes types ∧
        types.flatMap TypeSyntax.alternatives = type.normal.alternatives) : type.Readable := by
  refine ⟨alternatives, ?_⟩
  intro limit enough
  rw [operandLexemes, if_pos union] at enough ⊢
  obtain ⟨below, rfl⟩ : ∃ below, limit = below + 1 :=
    Nat.exists_eq_add_of_le' (Nat.le_trans (by simp) enough)
  obtain ⟨types, spells, same⟩ := alternatives below (by simp at enough; omega)
  have reads := spells.readUnion
  rw [anyOf_eq_normal same] at reads
  exact ⟨[type.normal], .single (List.cons_ne_nil _ _) (TypeSyntax.readOperand_parentheses reads),
    List.flatMap_singleton _ _⟩

theorem Readable.of_parts (other : type.isUnion = false)
    (parts : ∀ limit, type.lexemes.length ≤ limit → ∃ types,
      Spells '&' (readOperand limit) ['<'] type.lexemes types ∧
        types.flatMap TypeSyntax.parts = type.normal.parts) : type.Readable := by
  constructor
  · intro limit enough
    obtain ⟨types, spells, same⟩ := parts limit enough
    have reads := spells.readIntersection
    rw [allOf_eq_normal same] at reads
    exact ⟨[type.normal], .single spells.lexemes_ne_nil reads, List.flatMap_singleton _ _⟩
  · simpa [operandLexemes, other] using parts

theorem Readable.of_operand (other : type.isUnion = false) (nonempty : type.lexemes ≠ [])
    (reads : ∀ limit, type.lexemes.length ≤ limit + 1 →
      Reads (readOperand (limit + 1)) ['<'] type.lexemes type.normal) : type.Readable := by
  refine .of_parts other ?_
  intro limit enough
  obtain ⟨below, rfl⟩ : ∃ below, limit = below + 1 :=
    Nat.exists_eq_add_of_le' (Nat.le_trans (List.length_pos_of_ne_nil nonempty) enough)
  exact ⟨[type.normal], .single nonempty (reads below enough), List.flatMap_singleton _ _⟩

end Readable

section Names
variable {name : String}

theorem keyword?_of_isTypeName (legal : isTypeName name = true) :
    TypeSyntax.keyword? name = none :=
  Option.isNone_iff_eq_none.mp (Bool.and_eq_true_iff.mp legal).2

theorem readable_scalar (kind : Scalar) : (scalar kind).Readable := by
  refine .of_operand rfl (List.cons_ne_nil _ _) ?_
  intro limit _
  have word := @TypeSyntax.readOperand_word limit kind.text
  cases kind <;> exact word

theorem readable_literal (value : Literal) : (literal value).Readable := by
  refine .of_operand rfl (List.cons_ne_nil _ _) ?_
  intro limit _
  cases value with
  | boolean value =>
    have word := @TypeSyntax.readOperand_word limit (if value then "true" else "false")
    cases value <;> exact word
  | null => exact TypeSyntax.readOperand_word "null"
  | _ =>
    intro rest _
    rfl

theorem readable_reference (legal : isTypeName name = true) : (reference name).Readable := by
  refine .of_operand rfl (List.cons_ne_nil _ _) ?_
  intro limit _
  have word := @TypeSyntax.readOperand_word limit name
  rw [keyword?_of_isTypeName legal] at word
  exact word

end Names

section Lists
variable {items : List TypeExpr} {limit : ℕ}

/-- Types that are read one by one are read as a list. -/
theorem spells_types {separator : Char} (unstopped : separator ∉ typeMarks) (nonempty : items ≠ [])
    (each : ∀ type ∈ items, type.Readable)
    (enough : (punctuated separator (items.map lexemes)).length ≤ limit) :
    Spells separator (readUnion (readOperand limit)) typeMarks
      (punctuated separator (items.map lexemes)) (items.map normal) := by
  rw [List.map_eq_flatMap (f := normal)]
  refine .punctuated unstopped nonempty ?_
  intro type member
  have readable := each type member
  have short := length_le_punctuated separator lexemes member
  exact .single readable.lexemes_ne_nil (readable.reads (Nat.le_trans short enough))

theorem readable_union (nonempty : items ≠ []) (each : ∀ type ∈ items, type.Readable) :
    (union items).Readable := by
  refine .of_alternatives rfl ?_
  intro limit enough
  rw [lexemes, lexemeLists_eq_map] at enough ⊢
  have members : ∀ type ∈ items, ∃ types,
      Spells '|' (readIntersection (readOperand limit)) ['&', '<'] type.lexemes types ∧
        types.flatMap TypeSyntax.alternatives = type.normal.alternatives := by
    intro type member
    have short := length_le_punctuated '|' lexemes member
    exact (each type member).alternatives limit (Nat.le_trans short enough)
  choose! types spells same using members
  refine ⟨items.flatMap types, .punctuated (by decide) nonempty spells, ?_⟩
  have flat : ∀ type ∈ items.map normal, type.Flat := by
    rintro _ member
    obtain ⟨type, -, rfl⟩ := List.mem_map.mp member
    exact type.flat_normal
  rw [normal, normals_eq_map, (TypeSyntax.Flat.anyOf flat).2, List.flatMap_assoc, List.flatMap_map]
  exact List.flatMap_congr same

theorem readable_intersection (nonempty : items ≠ []) (each : ∀ type ∈ items, type.Readable) :
    (intersection items).Readable := by
  refine .of_parts rfl ?_
  intro limit enough
  rw [lexemes, operandLists_eq_map] at enough ⊢
  have members : ∀ type ∈ items, ∃ types,
      Spells '&' (readOperand limit) ['<'] type.operandLexemes types ∧
        types.flatMap TypeSyntax.parts = type.normal.parts := by
    intro type member
    have short := length_le_punctuated '&' operandLexemes member
    exact (each type member).parts limit (Nat.le_trans short enough)
  choose! types spells same using members
  refine ⟨items.flatMap types, .punctuated (by decide) nonempty spells, ?_⟩
  have flat : ∀ type ∈ items.map normal, type.Flat := by
    rintro _ member
    obtain ⟨type, -, rfl⟩ := List.mem_map.mp member
    exact type.flat_normal
  rw [normal, normals_eq_map, (TypeSyntax.Flat.allOf flat).2, List.flatMap_assoc, List.flatMap_map]
  exact List.flatMap_congr same

theorem readable_generic {name : String} (plain : TypeSyntax.keyword? name = none)
    (nonempty : items ≠ []) (each : ∀ type ∈ items, type.Readable) :
    (generic name items).Readable := by
  refine .of_operand rfl (List.cons_ne_nil _ _) ?_
  intro limit enough
  rw [lexemes, lexemeLists_eq_map] at enough ⊢
  rw [normal, normals_eq_map]
  exact TypeSyntax.readOperand_generic plain
    (spells_types (by decide) nonempty each (by simp at enough; omega))

end Lists

/-- An array or a record is read as the generic type of that name. -/
theorem Readable.of_generic {type : TypeExpr} {name : String} {items : List TypeExpr}
    (generic : (TypeExpr.generic name items).Readable) (other : type.isUnion = false)
    (sameLexemes : type.lexemes = (TypeExpr.generic name items).lexemes)
    (sameNormal : type.normal = (TypeExpr.generic name items).normal) : type.Readable := by
  constructor
  · rw [sameLexemes, sameNormal]
    exact generic.alternatives
  · have sameOperand : type.operandLexemes = (TypeExpr.generic name items).operandLexemes := by
      rw [operandLexemes, if_neg (by simp [other]), sameLexemes]
      rfl
    rw [sameOperand, sameNormal]
    exact generic.parts

theorem readable_object {fields : List Field} (each : ∀ field ∈ fields, field.type.Readable) :
    (object fields).Readable := by
  refine .of_operand rfl (List.cons_ne_nil _ _) ?_
  intro limit enough
  rw [lexemes, fieldLexemes_eq_map] at enough ⊢
  rw [normal, normalFields_eq_map]
  cases fields with
  | nil =>
    intro rest _
    rfl
  | cons first others =>
    -- A member begins with its name, which tells the type from an empty one.
    have begins : ∀ rest, (punctuated ';' ((first :: others).map fun field : Field =>
        keyLexemes field.name field.optional ++ field.type.lexemes) ++ rest).head? =
        some (.text first.name) := by
      intro rest
      cases others <;> simp [punctuated, keyLexemes]
    refine TypeSyntax.readOperand_object ?_ ?_
    · rw [← List.append_nil (punctuated _ _), begins]
      simp
    rw [List.map_eq_flatMap (f := fun field : Field =>
      (⟨field.name, field.type.normal, field.optional⟩ : Property TypeSyntax))]
    have unstopped : ';' ∉ typeMarks := by decide
    refine .punctuated unstopped (List.cons_ne_nil _ _) ?_
    intro field member
    have readable := each field member
    have short := length_le_punctuated ';'
      (fun field : Field => keyLexemes field.name field.optional ++ field.type.lexemes) member
    simp only [List.length_append, List.length_cons] at short enough
    refine .single (by simp [keyLexemes]) (TypeSyntax.readMember_key (readable.reads ?_))
    omega

theorem readable {type : TypeExpr} (plain : type.Plain) : type.Readable := by
  induction type using TypeExpr.induction with
  | scalar kind => exact readable_scalar kind
  | array item ih =>
    cases plain with
    | array plain =>
    have generic : (generic "Array" [item]).Readable :=
      readable_generic rfl (List.cons_ne_nil _ _) (by simpa using ih plain)
    exact generic.of_generic rfl rfl rfl
  | object fields ih =>
    cases plain with
    | object plain => exact readable_object fun field member => ih field member (plain field member)
  | reference name =>
    cases plain with
    | reference legal => exact readable_reference legal
  | union members ih =>
    cases plain with
    | union nonempty plain =>
    exact readable_union nonempty fun member inside => ih member inside (plain member inside)
  | intersection members ih =>
    cases plain with
    | intersection nonempty plain =>
    exact readable_intersection nonempty fun member inside => ih member inside (plain member inside)
  | literal value => exact readable_literal value
  | record values ih =>
    cases plain with
    | record plain =>
    have generic : (generic "Record" [string, values]).Readable :=
      readable_generic rfl (List.cons_ne_nil _ _)
        (by simpa using ⟨readable_scalar .string, ih plain⟩)
    exact generic.of_generic rfl rfl rfl
  | generic name arguments ih =>
    cases plain with
    | generic legal nonempty plain =>
    exact readable_generic (keyword?_of_isTypeName legal) nonempty fun argument member =>
      ih argument member (plain argument member)

/-- The text of a type is a type, and the same one up to what normal forms leave out. -/
theorem read_text {type : TypeExpr} (plain : type.Plain) (quotes : QuoteStyle) :
    TypeSyntax.read? (type.text quotes) = some type.normal := by
  have lexed := lexes_text plain quotes [] rfl
  have stops : Lexing.between.run? [] = some [] := rfl
  rw [List.append_nil, stops, Option.map_some, List.append_nil] at lexed
  have read := (readable plain).reads (Nat.le_refl _) [] (by simp [TypeSyntax.Stops])
  rw [List.append_nil] at read
  simp only [TypeSyntax.read?, lexed, Option.bind_eq_bind, Option.bind_some, read]
  rfl

def mixed : TypeExpr :=
  .intersection [.union [.reference "Left", .union [.literal .null, .literal (.integer (-1))]],
    .object [⟨"a'b", .array (.union [.intersection [.union [.string, .literal (.string "|")]]]), true⟩]]

theorem plain_mixed : mixed.Plain := by
  have left : (reference "Left").Plain := .reference (by decide)
  have alternatives : (union [.literal .null, .literal (.integer (-1))]).Plain :=
    .union (by simp) (by simpa using ⟨.literal rfl, .literal rfl⟩)
  have texts : (union [.string, .literal (.string "|")]).Plain :=
    .union (by simp) (by simpa using ⟨.scalar .string, .literal rfl⟩)
  have items : (array (union [.intersection [.union [.string, .literal (.string "|")]]])).Plain :=
    .array (.union (by simp) (by simpa using .intersection (by simp) (by simpa using texts)))
  refine .intersection (by simp) ?_
  simp only [List.forall_mem_cons]
  exact ⟨.union (by simp) (by simpa using ⟨left, alternatives⟩), .object (by simpa using items),
    by simp⟩

theorem mixed_read_text :
    mixed.text .single = "(Left | null | -1) & \x7b 'a\\'b'?: Array<(string | '|')> \x7d" ∧
      TypeSyntax.read? (mixed.text .single) =
        some (.intersection
          [.union [.named "Left" [], .keyword .null, .number (nearest? true 1 1)],
            .object [⟨"a'b", .named "Array" [.union [.keyword .string, .text "|"]], true⟩]]) :=
  ⟨by decide, read_text plain_mixed .single⟩

-- Infinity reads as a name, and so does what is no number; a sign in front of a name is no type.
-- Integers of more than 53 bits are read as the nearest number, which is that of another integer.
theorem numbers_not_read_back :
    TypeSyntax.read? ((literal (.infinity false)).text .single) = some (reference "inf").normal ∧
      (literal (.infinity false)).normal ≠ (reference "inf").normal ∧
      TypeSyntax.read? ((literal (.infinity true)).text .single) = none ∧
      TypeSyntax.read? ((literal .notANumber).text .single) = some (reference "NaN").normal ∧
      (literal (.integer 9007199254740993)).normal = (literal (.integer 9007199254740992)).normal := by
  have nearest : nearest? false 9007199254740993 1 = nearest? false 9007199254740992 1 := by
    decide +kernel
  exact ⟨rfl, nofun, rfl, rfl, congrArg TypeSyntax.number nearest⟩

end TypeExpr

end TypedClient.TypeScript
