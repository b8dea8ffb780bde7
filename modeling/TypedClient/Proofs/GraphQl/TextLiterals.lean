import TypedClient.GraphQl.Definitions.Printer
import TypedClient.GraphQl.Definitions.Syntax
import TypedClient.Proofs.GraphQl.Spelling
import TypedClient.Proofs.Text.Numerals

/-! Quoted texts and blocks of text as tokens.

A quoted text is read back as it was. What a block says depends on its lines and on how they are
indented, but where it ends does not: it is one token on every page.
-/

set_option autoImplicit false

namespace TypedClient.GraphQl.Definitions

section Quoted
variable {text : List Char}

/-- Texts are read back if each of their characters is. -/
theorem readText_flatMap {escape : Char → List Char} (rest : List Char)
    (each : ∀ c ∈ text, ∀ more,
      readText (escape c ++ more) = (readText more).map fun (text, rest) => (c :: text, rest)) :
    readText (text.flatMap escape ++ '"' :: rest) = some (text, rest) := by
  induction text with
  | nil => simp [readText]
  | cons c text ih =>
    obtain ⟨first, others⟩ := List.forall_mem_cons.mp each
    rw [List.flatMap_cons, List.append_assoc, first, ih others, Option.map_some]

theorem readText_cons {c : Char} (quote : c ≠ '"') (feed : c ≠ '\n') (backslash : c ≠ '\\')
    (more : List Char) :
    readText (c :: more) = (readText more).map fun (text, rest) => (c :: text, rest) := by
  rw [readText]
  · cases readText more <;> rfl
  all_goals
    intros
    contradiction

theorem readText_escape {c plain : Char} (known : escaped? c = some plain) (more : List Char) :
    readText ('\\' :: c :: more) = (readText more).map fun (text, rest) => (plain :: text, rest) := by
  rw [readText]
  · simp only [known, Option.bind_eq_bind, Option.bind_some]
    cases readText more <;> rfl
  · rintro _ _ _ _ _ rfl
    cases known

theorem readText_escapeTextChar (c : Char) (more : List Char) :
    readText (escapeTextChar c ++ more) =
      (readText more).map fun (text, rest) => (c :: text, rest) := by
  unfold escapeTextChar
  split_ifs with backslash quote feed
  · subst backslash
    exact readText_escape rfl more
  · subst quote
    exact readText_escape rfl more
  · subst feed
    exact readText_escape rfl more
  · exact readText_cons quote feed backslash more

/-- A quoted text is not the beginning of a block, even if it is empty. -/
theorem Spelled.quoted (indent : Nat) {inside : List Char} (single : '\n' ∉ inside)
    (unquoted : inside.head? ≠ some '"')
    (read : ∀ rest, readText (inside ++ '"' :: rest) = some (text, rest)) :
    Spelled indent ('"' :: (inside ++ ['"'])) [.text (String.ofList text)] := by
  refine .of_one_line (by simpa using single) ?_
  intro rest stopped
  have unblocked : ∀ more, inside ++ '"' :: rest ≠ '"' :: '"' :: more := by
    intro more same
    cases inside with
    | nil =>
      cases same
      cases stopped
    | cons c inside => exact unquoted (congrArg some (List.cons.inj same).1)
  simpa using lexAll_text (read rest) unblocked

theorem escapeTextChar_first (c : Char) :
    '\n' ∉ escapeTextChar c ∧ (escapeTextChar c).head? ≠ some '"' ∧ escapeTextChar c ≠ [] := by
  unfold escapeTextChar
  split_ifs with backslash quote feed
  · simp
  · simp
  · simp
  · simpa [eq_comm] using ⟨feed, quote⟩

theorem escaped_first {escape : Char → List Char}
    (each : ∀ c, '\n' ∉ escape c ∧ (escape c).head? ≠ some '"' ∧ escape c ≠ []) (text : List Char) :
    '\n' ∉ text.flatMap escape ∧ (text.flatMap escape).head? ≠ some '"' := by
  constructor
  · intro member
    obtain ⟨c, -, inside⟩ := List.mem_flatMap.mp member
    exact (each c).1 inside
  · cases text with
    | nil => simp
    | cons c text =>
      obtain ⟨-, unquoted, nonempty⟩ := each c
      obtain ⟨first, more, same⟩ := List.exists_cons_of_ne_nil nonempty
      rw [List.flatMap_cons, same]
      rwa [same] at unquoted

theorem Spelled.textLiteral (indent : Nat) (text : String) :
    Spelled indent (textLiteral text).toList [.text text] := by
  obtain ⟨single, unquoted⟩ := escaped_first escapeTextChar_first text.toList
  have spelled := Spelled.quoted indent single unquoted fun rest =>
    readText_flatMap rest fun c _ => readText_escapeTextChar c
  simpa [GraphQl.textLiteral] using spelled

section Values
variable {c : Char}

theorem escapeValueChar_first (c : Char) :
    '\n' ∉ escapeValueChar c ∧ (escapeValueChar c).head? ≠ some '"' ∧ escapeValueChar c ≠ [] := by
  unfold escapeValueChar
  split_ifs with carriage feed tab quote backslash plain
  · simp
  · simp
  · simp
  · simp
  · simp
  · simpa [eq_comm] using ⟨feed, quote⟩
  · refine ⟨?_, by simp, by simp⟩
    intro member
    have digits : '\n' ∈ paddedCode c.toNat := by simpa using member
    rcases List.mem_append.mp digits with zero | digit
    · exact absurd (List.eq_of_mem_replicate zero) (by decide)
    · rw [Text.toList_toString] at digit
      exact absurd (Text.isDigit_of_mem_toDigits digit) (by decide)

/-- A plain character is read back as it was. -/
theorem readText_escapeValueChar (plain : isPlain c = true) (more : List Char) :
    readText (escapeValueChar c ++ more) =
      (readText more).map fun (text, rest) => (c :: text, rest) := by
  unfold escapeValueChar
  rw [if_pos plain]
  split_ifs with carriage feed tab quote backslash
  · subst carriage
    exact readText_escape rfl more
  · subst feed
    exact readText_escape rfl more
  · subst tab
    exact readText_escape rfl more
  · subst quote
    exact readText_escape rfl more
  · subst backslash
    exact readText_escape rfl more
  · exact readText_cons quote feed backslash more

/-- Four decimal digits are the hexadecimal code of some character. -/
theorem exists_charOfCode? {w x y z : Char}
    (digits : ∀ digit ∈ [w, x, y, z], digit.isDigit = true) :
    ∃ code plain, codeValue? [w, x, y, z] = some code ∧ Text.charOfCode? code = some plain := by
  have small := fun digit member => Text.digitValue_le (digits digit member)
  simp only [List.forall_mem_cons] at digits small
  obtain ⟨first, second, third, fourth, -⟩ := digits
  obtain ⟨below, below₂, below₃, below₄, -⟩ := small
  refine ⟨((Text.digitValue w * 16 + Text.digitValue x) * 16 + Text.digitValue y) * 16 +
    Text.digitValue z, _, ?_, dif_pos (.inl (by omega))⟩
  rw [codeValue?]
  · simp [Text.hexValue?, Text.hexDigit?_of_isDigit, first, second, third, fourth]
  · rintro _ ⟨⟩
    exact absurd first (by decide)

theorem readText_digits {digits : List Char} (each : ∀ digit ∈ digits, digit.isDigit = true)
    (more : List Char) :
    readText (digits ++ more) = (readText more).map fun (text, rest) => (digits ++ text, rest) := by
  induction digits with
  | nil => simp
  | cons digit digits ih =>
    obtain ⟨first, others⟩ := List.forall_mem_cons.mp each
    have plain : digit ≠ '"' ∧ digit ≠ '\n' ∧ digit ≠ '\\' := by
      refine ⟨?_, ?_, ?_⟩ <;>
      · rintro rfl
        exact absurd first (by decide)
    rw [List.cons_append, readText_cons plain.1 plain.2.1 plain.2.2, ih others, Option.map_map]
    rfl

/-- Any other character is read back as some text. -/
theorem exists_readText_escapeValueChar (c : Char) : ∃ value, ∀ more,
    readText (escapeValueChar c ++ more) =
      (readText more).map fun (text, rest) => (value ++ text, rest) := by
  by_cases plain : isPlain c = true ∨ c = '\r' ∨ c = '\n' ∨ c = '\t' ∨ c = '"' ∨ c = '\\'
  · refine ⟨[c], fun more => ?_⟩
    rcases plain with plain | rfl | rfl | rfl | rfl | rfl
    · exact readText_escapeValueChar plain more
    all_goals exact readText_escape rfl more
  · simp only [not_or] at plain
    obtain ⟨plain, carriage, feed, tab, quote, backslash⟩ := plain
    -- A code of at least four decimal digits, of which the first four are read as hexadecimal ones
    -- and the others as themselves.
    have coded : escapeValueChar c = '\\' :: 'u' :: paddedCode c.toNat := by
      simp [escapeValueChar, plain, carriage, feed, tab, quote, backslash]
    have digits : ∀ digit ∈ paddedCode c.toNat, digit.isDigit = true := by
      intro digit member
      rcases List.mem_append.mp member with zero | digit
      · rw [List.eq_of_mem_replicate zero]
        rfl
      · rw [Text.toList_toString] at digit
        exact Text.isDigit_of_mem_toDigits digit
    obtain ⟨w, x, y, z, others, same⟩ :
        ∃ w x y z others, paddedCode c.toNat = w :: x :: y :: z :: others := by
      have long : 4 ≤ (paddedCode c.toNat).length := by
        simp only [paddedCode, List.length_append, List.length_replicate]
        omega
      match paddedCode c.toNat, long with
      | w :: x :: y :: z :: others, _ => exact ⟨w, x, y, z, others, rfl⟩
    rw [same] at digits coded
    obtain ⟨code, char, known, found⟩ := exists_charOfCode? (w := w) (x := x) (y := y) (z := z)
      fun digit member => digits digit (List.mem_append_left others member)
    refine ⟨char :: others, fun more => ?_⟩
    have rest := readText_digits (fun digit member =>
      digits digit (List.mem_append_right [w, x, y, z] member)) more
    simp only [coded, List.cons_append, readText, known, found, Option.bind_eq_bind,
      Option.bind_some, rest]
    cases readText more <;> rfl

/-- Whatever a text holds, its quoted form is one text. -/
theorem exists_readText (text : List Char) : ∃ value, ∀ rest,
    readText (text.flatMap escapeValueChar ++ '"' :: rest) = some (value, rest) := by
  induction text with
  | nil => exact ⟨[], fun rest => by simp [readText]⟩
  | cons c text ih =>
    obtain ⟨value, read⟩ := ih
    obtain ⟨first, readFirst⟩ := exists_readText_escapeValueChar c
    refine ⟨first ++ value, fun rest => ?_⟩
    rw [List.flatMap_cons, List.append_assoc, readFirst, read, Option.map_some]

end Values

end Quoted

section Blocks
variable {text raw rest : List Char} {c : Char}

theorem readBlock_cons (escaped : ∀ more, c = '\\' → text ≠ '"' :: '"' :: '"' :: more)
    (closing : ∀ more, c = '"' → text ≠ '"' :: '"' :: more) :
    readBlock (c :: text) = (readBlock text).map fun (raw, rest) => (c :: raw, rest) := by
  rw [readBlock]
  · cases readBlock text <;> rfl
  · exact fun more first second => escaped more first second
  · exact fun more first second => closing more first second

/-- A block ends where it ends, whatever comes behind it. -/
theorem readBlock_append (read : readBlock text = some (raw, rest)) (more : List Char) :
    readBlock (text ++ more) = some (raw, rest ++ more) := by
  fun_induction readBlock text generalizing raw with
  | case1 => cases read
  | case2 text ih =>
    simp only [Option.bind_eq_bind, Option.bind_eq_some_iff, Prod.exists] at read
    obtain ⟨_, _, found, same⟩ := read
    cases same
    simp only [List.cons_append, readBlock, ih found, Option.bind_eq_bind, Option.bind_some]
    rfl
  | case3 text =>
    cases read
    simp [readBlock]
  | case4 c text escaped closing ih =>
    simp only [Option.bind_eq_bind, Option.bind_eq_some_iff, Prod.exists] at read
    obtain ⟨_, _, found, same⟩ := read
    cases same
    -- The three characters that decide are part of the block.
    obtain ⟨x, y, z, others, rfl⟩ : ∃ x y z others, text = x :: y :: z :: others := by
      have := length_readBlock found
      match text, this with
      | x :: y :: z :: others, _ => exact ⟨x, y, z, others, rfl⟩
    rw [List.cons_append, readBlock_cons, ih found, Option.map_some]
    · rintro more rfl same
      cases same
      exact escaped _ rfl rfl
    · rintro more rfl same
      cases same
      exact closing _ rfl rfl

theorem eq_cons_of_reindent {indent : Nat} (other : c ≠ '\n')
    (begins : reindent indent text = c :: rest) :
    ∃ more, text = c :: more ∧ reindent indent more = rest := by
  cases text with
  | nil => cases begins
  | cons d more =>
    have same := (List.cons.inj begins).1
    subst same
    rw [reindent_cons other] at begins
    exact ⟨more, rfl, (List.cons.inj begins).2⟩

theorem readBlock_blanks (count : Nat) :
    readBlock (List.replicate count ' ' ++ text) =
      (readBlock text).map fun (raw, rest) => (List.replicate count ' ' ++ raw, rest) := by
  induction count with
  | zero => simp
  | succ count ih =>
    rw [List.replicate_succ, List.cons_append, readBlock_cons (by simp) (by simp), ih,
      Option.map_map]
    rfl

/-- An indented block ends where it did. -/
theorem readBlock_reindent (indent : Nat) (read : readBlock text = some (raw, rest)) :
    ∃ indented, readBlock (reindent indent text) = some (indented, reindent indent rest) := by
  fun_induction readBlock text generalizing raw with
  | case1 => cases read
  | case2 text ih =>
    simp only [Option.bind_eq_bind, Option.bind_eq_some_iff, Prod.exists] at read
    obtain ⟨_, _, found, same⟩ := read
    cases same
    obtain ⟨indented, again⟩ := ih found
    refine ⟨'"' :: '"' :: '"' :: indented, ?_⟩
    repeat rw [reindent_cons (by decide)]
    simp only [readBlock, again, Option.bind_eq_bind, Option.bind_some]
    rfl
  | case3 text =>
    cases read
    refine ⟨[], ?_⟩
    repeat rw [reindent_cons (by decide)]
    rw [readBlock]
  | case4 c text escaped closing ih =>
    simp only [Option.bind_eq_bind, Option.bind_eq_some_iff, Prod.exists] at read
    obtain ⟨_, _, found, same⟩ := read
    cases same
    obtain ⟨indented, again⟩ := ih found
    -- Blanks are put in behind line feeds only, and they end no block.
    by_cases feed : c = '\n'
    · subst feed
      obtain ⟨count, blanks⟩ : ∃ count, margin indent '\n' text = List.replicate count ' ' := by
        unfold margin
        split_ifs
        · exact ⟨indent, rfl⟩
        · exact ⟨0, rfl⟩
      refine ⟨'\n' :: (List.replicate count ' ' ++ indented), ?_⟩
      rw [reindent, blanks, readBlock_cons (by simp) (by simp), readBlock_blanks, again]
      rfl
    · refine ⟨c :: indented, ?_⟩
      rw [reindent_cons feed, readBlock_cons, again, Option.map_some]
      -- Quotes at the front of the indented text stood there before.
      · rintro more rfl first
        obtain ⟨text, rfl, second⟩ := eq_cons_of_reindent (by decide) first
        obtain ⟨text, rfl, third⟩ := eq_cons_of_reindent (by decide) second
        obtain ⟨text, rfl, -⟩ := eq_cons_of_reindent (by decide) third
        exact escaped _ rfl rfl
      · rintro more rfl first
        obtain ⟨text, rfl, second⟩ := eq_cons_of_reindent (by decide) first
        obtain ⟨text, rfl, -⟩ := eq_cons_of_reindent (by decide) second
        exact closing _ rfl rfl

/-- Only a quote that is not escaped begins with a quote. -/
theorem eq_cons_of_escapeQuotes {more : List Char}
    (begins : escapeQuotes text ++ '\n' :: more = '"' :: rest) :
    ∃ others, text = '"' :: others ∧ escapeQuotes others ++ '\n' :: more = rest := by
  fun_cases escapeQuotes text with
  | case1 => cases begins
  | case2 text =>
    rw [escapeQuotes] at begins
    cases begins
  | case3 c text unescaped =>
    rw [escapeQuotes, List.cons_append] at begins
    · obtain ⟨rfl, same⟩ := List.cons.inj begins
      exact ⟨text, rfl, same⟩
    · exact unescaped

/-- An escaped text is read back as it was. -/
theorem readBlock_escapeQuotes (text more : List Char) :
    readBlock (escapeQuotes text ++ '\n' :: more) =
      (readBlock more).map fun (raw, rest) => (text ++ '\n' :: raw, rest) := by
  fun_induction escapeQuotes text with
  | case1 => exact readBlock_cons (by simp) (by simp)
  | case2 text ih =>
    simp only [List.cons_append, readBlock, ih]
    cases readBlock more <;> rfl
  | case3 c text unescaped ih =>
    rw [List.cons_append, readBlock_cons, ih, Option.map_map]
    · rfl
    · rintro quotes rfl first
      obtain ⟨text, rfl, second⟩ := eq_cons_of_escapeQuotes first
      obtain ⟨text, rfl, third⟩ := eq_cons_of_escapeQuotes second
      obtain ⟨text, rfl, -⟩ := eq_cons_of_escapeQuotes third
      rw [escapeQuotes] at first
      cases first
    · rintro quotes rfl first
      obtain ⟨text, rfl, second⟩ := eq_cons_of_escapeQuotes first
      obtain ⟨text, rfl, -⟩ := eq_cons_of_escapeQuotes second
      exact unescaped _ rfl rfl

theorem escapeBlock_eq (text : List Char) : escapeBlock text = escapeQuotes text := by
  fun_induction escapeBlock text with
  | case1 => rfl
  | case2 text ih => rw [escapeQuotes, ih]
  | case3 c text unescaped ih =>
    rw [escapeQuotes, ih]
    exact unescaped

/-- What a block says may depend on its indentation, but it always is one text. -/
theorem exists_spelled_block (indent : Nat)
    (closed : ∃ raw, readBlock (text ++ ['"', '"', '"']) = some (raw, [])) :
    ∃ value, Spelled indent ('"' :: '"' :: '"' :: (text ++ ['"', '"', '"'])) [.text value] := by
  obtain ⟨raw, read⟩ := closed
  obtain ⟨indented, read⟩ := readBlock_reindent indent read
  refine ⟨String.ofList (blockText indented), ?_, ?_⟩
  · rw [← List.cons_append, ← List.cons_append, ← List.cons_append, List.getLast?_append]
    simp
  · intro rest _
    repeat rw [reindent_cons (by decide)]
    exact lexAll_block (readBlock_append read rest)

theorem exists_readBlock_line (line : List Char) {more : List Char}
    (read : readBlock more = some (raw, rest)) :
    ∃ raw, readBlock (blockLine line ++ more) = some (raw, rest) := by
  unfold blockLine
  split_ifs
  · refine ⟨'\n' :: raw, ?_⟩
    rw [List.singleton_append, readBlock_cons (by simp) (by simp), read, Option.map_some]
  · refine ⟨' ' :: ' ' :: (line ++ '\n' :: raw), ?_⟩
    rw [List.append_assoc, List.cons_append, List.cons_append, readBlock_cons (by simp) (by simp),
      readBlock_cons (by simp) (by simp), List.singleton_append, readBlock_escapeQuotes, read]
    rfl

/-- The lines of a block are read one by one. -/
theorem exists_readBlock_lines (lines : List (List Char)) {more : List Char}
    (read : readBlock more = some (raw, rest)) :
    ∃ raw, readBlock (lines.flatMap blockLine ++ more) = some (raw, rest) := by
  induction lines with
  | nil => exact ⟨raw, read⟩
  | cons line lines ih =>
    obtain ⟨inside, read⟩ := ih
    rw [List.flatMap_cons, List.append_assoc]
    exact exists_readBlock_line line read

/-- The source of a text value is one text wherever it stands. -/
theorem exists_spelled_valueText (indent : Nat) (text : String) :
    ∃ value, Spelled indent (valueText text).toList [.text value] := by
  unfold valueText
  by_cases block : isBlockText text.toList = true
  · have closes : readBlock ['"', '"', '"'] = some ([], []) := by simp [readBlock]
    obtain ⟨raw, read⟩ := exists_readBlock_lines (Text.lineList text.toList) closes
    have closed : readBlock ('\n' :: (Text.lineList text.toList).flatMap blockLine ++ ['"', '"', '"']) =
        some ('\n' :: raw, []) := by
      rw [List.cons_append, readBlock_cons (by simp) (by simp), read, Option.map_some]
    obtain ⟨value, spelled⟩ := exists_spelled_block indent ⟨_, closed⟩
    exact ⟨value, by simpa [block] using spelled⟩
  · obtain ⟨value, read⟩ := exists_readText text.toList
    obtain ⟨single, unquoted⟩ := escaped_first escapeValueChar_first text.toList
    exact ⟨_, by simpa [block] using Spelled.quoted indent single unquoted read⟩

/-- A text of plain characters is read back as it was. -/
theorem spelled_valueText_of_plain (indent : Nat) {text : String}
    (plain : ∀ c ∈ text.toList, isPlain c = true) :
    Spelled indent (valueText text).toList [.text text] := by
  have single : isBlockText text.toList = false := by
    have noFeed : '\n' ∉ text.toList := fun member => absurd (plain _ member) (by decide)
    simp [isBlockText, noFeed]
  obtain ⟨inside, unquoted⟩ := escaped_first escapeValueChar_first text.toList
  have spelled := Spelled.quoted indent inside unquoted fun rest =>
    readText_flatMap rest fun c member => readText_escapeValueChar (plain c member)
  simpa [valueText, single] using spelled

end Blocks

end TypedClient.GraphQl.Definitions
