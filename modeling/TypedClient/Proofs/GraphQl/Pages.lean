import TypedClient.Proofs.GraphQl.SchemaTrees
import TypedClient.Proofs.GraphQl.TextLiterals

/-! The tokens of a page.

Each item adds some text to a page, and this text has the tokens of the item whatever stands
before and behind it.
-/

set_option autoImplicit false

namespace TypedClient.GraphQl.Definitions

open Page (ruledLine)

section Lines
variable {text first rest : List Char} {indent : Nat}

theorem splitAt_append (first rest : List Char) :
    Text.splitAt (· == '\n') (first ++ '\n' :: rest) =
      Text.splitAt (· == '\n') first ++ Text.splitAt (· == '\n') rest :=
  @Text.splitAt_append_cons (· == '\n') '\n' (beq_self_eq_true '\n') first rest

theorem ruledLine_append {line : List Char} {begins : Bool} (indent : Nat)
    (same : line.isEmpty = !begins) (rest : List Char) :
    ruledLine indent line ++ rest =
      (if begins then List.replicate indent ' ' else []) ++ (line ++ '\n' :: rest) := by
  unfold ruledLine
  cases begins with
  | true => simp [same]
  | false => simp [List.isEmpty_iff.mp same]

theorem exists_lines (indent : Nat) (text : List Char) :
    ∃ line more, Text.splitAt (· == '\n') text = line :: more ∧
      line.isEmpty = !startsLine text ∧
      line ++ '\n' :: more.flatMap (ruledLine indent) = reindent indent text ++ ['\n'] := by
  induction text with
  | nil => exact ⟨[], [], rfl, rfl, rfl⟩
  | cons c text ih =>
    obtain ⟨line, more, split, begins, same⟩ := ih
    by_cases feed : c = '\n'
    · refine ⟨[], line :: more, by simp [Text.splitAt, feed, split], by simp [startsLine, feed], ?_⟩
      rw [List.flatMap_cons, ruledLine_append indent begins, same, reindent, feed]
      simp [margin]
    · refine ⟨c :: line, more, by simp [Text.splitAt, feed, split], by simp [startsLine, feed], ?_⟩
      rw [reindent_cons feed, List.cons_append, List.cons_append, same]

/-- The lines of a text put on a page one by one are the text with its margins. -/
theorem flatMap_ruledLine (indent : Nat) (text : List Char) :
    (Text.splitAt (· == '\n') text).flatMap (ruledLine indent) =
      (if startsLine text then List.replicate indent ' ' else []) ++
        (reindent indent text ++ ['\n']) := by
  obtain ⟨line, more, split, begins, same⟩ := exists_lines indent text
  rw [split, List.flatMap_cons, ruledLine_append indent begins, same]

theorem reindent_zero (text : List Char) : reindent 0 text = text := by
  induction text with
  | nil => rfl
  | cons c text ih =>
    rw [reindent, ih, margin]
    split_ifs <;> rfl

theorem lexAll_blanks (count : Nat) : lexAll (List.replicate count ' ' ++ text) = lexAll text := by
  induction count with
  | zero => rfl
  | succ count ih => rw [List.replicate_succ, List.cons_append, lexAll_ignored rfl, ih]

theorem Spelled.lexAll_lines {tokens : List Token} (spelled : Spelled indent text tokens)
    (rest : List Char) :
    lexAll ((Text.splitAt (· == '\n') text).flatMap (ruledLine indent) ++ rest) =
      tokens ++ lexAll rest := by
  have lexes : lexAll (reindent indent text ++ '\n' :: rest) = tokens ++ lexAll rest := by
    rw [spelled.lexes _ rfl, lexAll_ignored rfl]
  rw [flatMap_ruledLine, List.append_assoc, List.append_assoc, List.singleton_append]
  split_ifs
  · rw [lexAll_blanks, lexes]
  · exact lexes

end Lines

section Pages

/-- Whatever page the items are put on at this depth, they add these tokens to it. -/
def Prints (depth : Nat) (items : List Item) (tokens : List Token) : Prop :=
  ∀ page : Page, page.depth = depth → ∃ text,
    (page.run Style.standard (Item.stepsOf items)).text.toList = page.text.toList ++ text ∧
      (page.run Style.standard (Item.stepsOf items)).depth = depth ∧
      ∀ rest, lexAll (text ++ rest) = tokens ++ lexAll rest

variable {depth : Nat} {items others : List Item} {tokens more : List Token}

theorem Prints.nil : Prints depth [] [] := by
  intro page same
  exact ⟨[], by simp [Item.stepsOf], same, fun _ => rfl⟩

theorem Prints.append (first : Prints depth items tokens) (second : Prints depth others more) :
    Prints depth (items ++ others) (tokens ++ more) := by
  intro page same
  obtain ⟨text, added, same, lexes⟩ := first page same
  obtain ⟨text', added', same', lexes'⟩ := second _ same
  refine ⟨text ++ text', ?_, ?_, ?_⟩
  · rw [Item.stepsOf_append, Page.run_append, added', added, List.append_assoc]
  · rw [Item.stepsOf_append, Page.run_append, same']
  · intro rest
    rw [List.append_assoc, lexes, lexes', List.append_assoc]

theorem Prints.flatMap {ι : Type} {parts : List ι} {itemsOf : ι → List Item}
    {tokensOf : ι → List Token} (each : ∀ part ∈ parts, Prints depth (itemsOf part) (tokensOf part)) :
    Prints depth (parts.flatMap itemsOf) (parts.flatMap tokensOf) := by
  induction parts with
  | nil => exact .nil
  | cons part parts ih =>
    obtain ⟨first, others⟩ := List.forall_mem_cons.mp each
    rw [List.flatMap_cons, List.flatMap_cons]
    exact first.append (ih others)

theorem Prints.line {text : String} (spelled : Spelled (2 * depth) text.toList tokens) :
    Prints depth [.line text] tokens := by
  intro page same
  refine ⟨_, Page.text_line text page, same, ?_⟩
  rw [same]
  exact spelled.lexAll_lines

theorem Prints.blank : Prints depth [.blank] [] := by
  intro page same
  have deep := (Page.depth_blank page).trans same
  obtain added | added := Page.text_blank page
  · exact ⟨[], added.trans (List.append_nil _).symm, deep, fun _ => rfl⟩
  · exact ⟨['\n'], added, deep, fun _ => lexAll_ignored rfl⟩

theorem text_openBlock {header : String} (spelled : Spelled 0 header.toList tokens) (page : Page) :
    ∃ text, (page.openBlock Style.standard header).text.toList = page.text.toList ++ text ∧
      ∀ rest, lexAll (text ++ rest) = tokens ++ .mark '\x7b' :: lexAll rest := by
  obtain ⟨space, isSpace, opened⟩ := Page.text_openBlock header page
  have brace : Spelled 0 (space ++ "\x7b").toList [.mark '\x7b'] := by
    rcases isSpace with rfl | rfl
    · exact Spelled.nil.mark rfl
    · exact (Spelled.nil.mark rfl).blank rfl (by decide)
  have apart : stops (space ++ "\x7b").toList = true := by
    rcases isSpace with rfl | rfl <;> rfl
  have line := spelled.append brace apart
  rw [← String.toList_append] at line
  refine ⟨_, opened, fun rest => ?_⟩
  have lexes := line.lexes ('\n' :: rest) rfl
  rw [reindent_zero, lexAll_ignored rfl] at lexes
  rw [List.append_assoc, lexAll_blanks, List.append_assoc]
  simpa using lexes

theorem text_closeBlock (page : Page) :
    ∃ text, (page.closeBlock Style.standard "").text.toList = page.text.toList ++ text ∧
      ∀ rest, lexAll (text ++ rest) = .mark '\x7d' :: lexAll rest := by
  refine ⟨_, Page.text_closeBlock "" page, fun rest => ?_⟩
  rw [List.append_assoc, lexAll_blanks]
  change lexAll ('\x7d' :: '\n' :: rest) = _
  rw [lexAll_mark rfl, lexAll_ignored rfl]

/-- A header and its block in braces. -/
theorem Prints.block {header : String} {body : List Item} (spelled : Spelled 0 header.toList tokens) (inside : Prints (depth + 1) body more) :
    Prints depth [.block header body ""] (tokens ++ .mark '\x7b' :: (more ++ [.mark '\x7d'])) := by
  intro page same
  obtain ⟨opening, opened, lexes⟩ := text_openBlock spelled page
  obtain ⟨text, added, deeper, lexes'⟩ := inside (page.openBlock Style.standard header)
    (congrArg (· + 1) same)
  obtain ⟨closing, closed, lexes''⟩ :=
    text_closeBlock ((page.openBlock Style.standard header).run Style.standard (Item.stepsOf body))
  refine ⟨opening ++ (text ++ closing), ?_, ?_, ?_⟩
  · simp only [Item.stepsOf, Item.steps, List.append_nil, Page.run_cons, Page.run_append, Page.run_nil,
      Page.step, closed, added, opened, List.append_assoc]
  · simp only [Item.stepsOf, Item.steps, List.append_nil, Page.run_cons, Page.run_append, Page.run_nil,
      Page.step, Page.closeBlock, Page.push, deeper, Nat.add_sub_cancel]
  · intro rest
    rw [List.append_assoc, lexes, List.append_assoc, lexes', lexes'']
    simp

theorem lexAll_render (prints : Prints 0 items tokens) :
    lexAll (Item.render Style.standard items).toList = tokens := by
  obtain ⟨text, added, -, lexes⟩ := prints Page.empty rfl
  have whole := lexes []
  rw [List.append_nil, show lexAll [] = [] from rfl, List.append_nil] at whole
  rw [Item.render, Page.render, added]
  exact whole

end Pages

section Descriptions
variable {depth : Nat} {text : String}

theorem line_line (first second : String) (page : Page) :
    (page.line Style.standard first).line Style.standard second =
      page.line Style.standard (first ++ "\n" ++ second) := by
  have split : Text.splitOn '\n' (first ++ "\n" ++ second) =
      Text.splitOn '\n' first ++ Text.splitOn '\n' second := by
    unfold Text.splitOn
    rw [String.toList_append, String.toList_append, List.append_assoc,
      show "\n".toList = ['\n'] from rfl, List.singleton_append, splitAt_append, List.map_append]
  simp [Page.line, split]

/-- Lines that follow each other are one text with line feeds. -/
theorem Prints.of_lines {first second third : String} {tokens : List Token}
    (prints : Prints depth [.line (first ++ "\n" ++ second ++ "\n" ++ third)] tokens) :
    Prints depth [.line first, .line second, .line third] tokens := by
  intro page same
  have together := prints page same
  simp only [Item.stepsOf, Item.steps, List.append_nil, List.singleton_append, Page.run_cons,
    Page.run_nil, Page.step, line_line] at together ⊢
  exact together

/-- A description on one line is read back as it is. -/
theorem prints_description_of_one_line (nonempty : text ≠ "") (single : '\n' ∉ text.toList) :
    Prints depth (descriptionItems (some text)) [.text text] := by
  have items : descriptionItems (some text) = [.line (textLiteral text)] := by
    simp [descriptionItems, nonempty, single]
  rw [items]
  exact .line (.textLiteral _ text)

/-- Every description is read back as some text. -/
theorem exists_prints_description (depth : Nat) (nonempty : text ≠ "") :
    ∃ value, Prints depth (descriptionItems (some text)) [.text value] := by
  by_cases single : '\n' ∉ text.toList
  · exact ⟨text, prints_description_of_one_line nonempty single⟩
  · have items : descriptionItems (some text) =
        [.line blockMark, .line (String.ofList (escapeBlock text.toList)), .line blockMark] := by
      have several : '\n' ∈ text.toList := by simpa using single
      simp [descriptionItems, nonempty, several]
    have closed : readBlock (('\n' :: escapeQuotes text.toList ++ ['\n']) ++ ['"', '"', '"']) =
        some ('\n' :: (text.toList ++ ['\n']), []) := by
      rw [List.append_assoc, List.cons_append, readBlock_cons (by simp) (by simp),
        List.singleton_append, readBlock_escapeQuotes]
      simp [readBlock]
    obtain ⟨value, spelled⟩ := exists_spelled_block (2 * depth) ⟨_, closed⟩
    refine ⟨value, ?_⟩
    rw [items]
    refine .of_lines (.line ?_)
    simpa [blockMark, escapeBlock_eq] using spelled

end Descriptions

end TypedClient.GraphQl.Definitions
