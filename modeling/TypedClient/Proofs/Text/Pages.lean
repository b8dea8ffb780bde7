import TypedClient.Page
import TypedClient.Proofs.Text.Pieces

/-! What each step adds to the text of a page, and which texts stay on one line. -/

set_option autoImplicit false

namespace TypedClient

open Text (QuoteStyle)

namespace Page

variable {style : Style}

def ruledLine (indent : Nat) (line : List Char) : List Char :=
  (if line.isEmpty then [] else List.replicate indent ' ' ++ line) ++ ['\n']

/-- The pieces between line feeds, each with one behind it, are the text. -/
theorem flatMap_splitAt (text : List Char) :
    (Text.splitAt (· == '\n') text).flatMap (· ++ ['\n']) = text ++ ['\n'] := by
  induction text with
  | nil => rfl
  | cons c text ih =>
    by_cases feed : c = '\n'
    · rw [Text.splitAt_cons_of_separates (by simpa using feed), List.flatMap_cons, ih, feed]
      rfl
    · obtain ⟨piece, pieces, split, whole⟩ :=
        @Text.exists_splitAt_cons (· == '\n') c (by simpa using feed) text
      rw [split, List.flatMap_cons] at ih
      rw [whole, List.flatMap_cons, List.cons_append, List.cons_append, ih, List.cons_append]

theorem toList_indent (depth : Nat) :
    (indent style depth).toList = List.replicate (style.indentWidth * depth) ' ' :=
  String.toList_ofList

theorem text_push (text : String) (page : Page) :
    (page.push text).text.toList = page.text.toList ++ (text.toList ++ ['\n']) := by
  simp [Page.text, push, Text.splitOn, List.flatMap_map, List.flatMap_append, flatMap_splitAt]

theorem text_line (text : String) (page : Page) :
    (page.line style text).text.toList =
      page.text.toList ++ (Text.splitAt (· == '\n') text.toList).flatMap
        (ruledLine (style.indentWidth * page.depth)) := by
  have lines : ∀ line : List Char,
      (if (String.ofList line).isEmpty then ""
        else indent style page.depth ++ String.ofList line).toList ++ ['\n'] =
      ruledLine (style.indentWidth * page.depth) line := by
    intro line
    unfold ruledLine
    cases line with
    | nil => rfl
    | cons c line =>
      have nonempty : (String.ofList (c :: line)).isEmpty = false := by simp
      rw [nonempty]
      simp [toList_indent]
  simp only [Page.text, line, Text.splitOn, String.toList_ofList, List.reverse_append,
    List.reverse_reverse, List.flatMap_append, List.flatMap_map, List.map_map, Function.comp_def, lines]

theorem text_blank (page : Page) : page.blank.text.toList = page.text.toList ∨
    page.blank.text.toList = page.text.toList ++ ['\n'] := by
  unfold blank
  split
  · exact .inl rfl
  · exact .inl rfl
  · exact .inr (by simp [Page.text])

theorem depth_blank (page : Page) : page.blank.depth = page.depth := by
  unfold blank
  split <;> rfl

/-- The space in front of the brace makes no difference to most readers. -/
theorem text_openBlock (header : String) (page : Page) : ∃ space : String,
    (space = "" ∨ space = " ") ∧
      (page.openBlock style header).text.toList = page.text.toList ++
        (List.replicate (style.indentWidth * page.depth) ' ' ++
          ((header ++ (space ++ "\x7b")).toList ++ ['\n'])) := by
  refine ⟨if joinsBrace header then "" else " ", ?_, ?_⟩
  · split_ifs
    · exact .inl rfl
    · exact .inr rfl
  · refine Eq.trans (text_push _ page) ?_
    simp only [String.append_assoc]
    rw [String.toList_append, toList_indent, List.append_assoc]

theorem text_closeBlock (suffix : String) (page : Page) :
    (page.closeBlock style suffix).text.toList = page.text.toList ++
      (List.replicate (style.indentWidth * (page.depth - 1)) ' ' ++
        (("\x7d" ++ suffix).toList ++ ['\n'])) := by
  refine Eq.trans (text_push _ { page with depth := page.depth - 1 }) ?_
  rw [String.append_assoc, String.toList_append, toList_indent, List.append_assoc]
  rfl

/-- A page only grows. -/
theorem exists_text_step (step : Step) (page : Page) : ∃ more,
    (page.step style step).text.toList = page.text.toList ++ more := by
  cases step with
  | line text => exact ⟨_, text_line text page⟩
  | blank =>
    obtain same | fed := text_blank page
    · exact ⟨[], same.trans (List.append_nil _).symm⟩
    · exact ⟨['\n'], fed⟩
  | openBlock header =>
    obtain ⟨_, _, opened⟩ := text_openBlock header page
    exact ⟨_, opened⟩
  | closeBlock suffix => exact ⟨_, text_closeBlock suffix page⟩

theorem exists_text_run (steps : List Step) (page : Page) : ∃ more,
    (page.run style steps).text.toList = page.text.toList ++ more := by
  induction steps generalizing page with
  | nil => exact ⟨[], (List.append_nil _).symm⟩
  | cons step steps ih =>
    obtain ⟨first, stepped⟩ := exists_text_step step page
    obtain ⟨others, ran⟩ := ih (page.step style step)
    exact ⟨first ++ others, by rw [run_cons, ran, stepped, List.append_assoc]⟩

end Page

section Lines
variable {first second : String}

def OneLine (text : String) : Prop := '\n' ∉ text.toList

instance (text : String) : Decidable (OneLine text) := inferInstanceAs (Decidable (¬ _))

theorem oneLine_append : OneLine (first ++ second) ↔ OneLine first ∧ OneLine second := by
  unfold OneLine
  rw [String.toList_append, List.mem_append, not_or]

variable {c : Char} (breaks : c = '\n' ∨ c = '\r')
include breaks

theorem not_mem_escapeChar (quotes : QuoteStyle) (other : Char) : c ∉ Text.escapeChar quotes other := by
  unfold Text.escapeChar
  split_ifs with backslash feed carriage delimiter
  · rcases breaks with rfl | rfl <;> decide
  · rcases breaks with rfl | rfl <;> decide
  · rcases breaks with rfl | rfl <;> decide
  · rw [delimiter]
    rcases breaks with rfl | rfl <;> cases quotes <;> decide
  · rw [List.mem_singleton]
    rintro rfl
    exact breaks.elim feed carriage

/-- Line breaks are escaped in literals. -/
theorem not_mem_quote (quotes : QuoteStyle) (value : String) : c ∉ (Text.quote quotes value).toList := by
  have apart : c ≠ quotes.delimiter := by rcases breaks with rfl | rfl <;> cases quotes <;> decide
  rw [Text.toList_quote]
  intro inside
  rw [List.cons_append, List.mem_cons, List.mem_append, List.mem_singleton] at inside
  obtain opens | escaped | closes := inside
  · exact apart opens
  · obtain ⟨other, _, member⟩ := List.mem_flatMap.mp escaped
    exact not_mem_escapeChar breaks quotes other member
  · exact apart closes

omit breaks in
theorem oneLine_quote (quotes : QuoteStyle) (value : String) : OneLine (Text.quote quotes value) :=
  not_mem_quote (.inl rfl) quotes value

end Lines

mutual

/-- The texts from which an item is put together. -/
def Item.texts : Item → List String
  | .line text => [text]
  | .blank => []
  | .block header body suffix => header :: suffix :: Item.textsOf body

def Item.textsOf : List Item → List String
  | [] => []
  | item :: rest => item.texts ++ Item.textsOf rest

end

end TypedClient
