import Mathlib.Data.List.Chain
import TypedClient.Proofs.Text.Pages

/-! The page that items are written on, against a layout of the items themselves.

The layout is read off the tree: each line at the depth of the blocks around it, and a gap for each blank.
Whether a gap shows is decided by the rows in front of it. A page knows neither rows nor gaps; it looks at
its last lines, and that these tell the same is what is carried from step to step.
-/

set_option autoImplicit false

namespace TypedClient

structure Row where
  depth : Nat
  text : String
  deriving DecidableEq, Repr

namespace Row

def ruled (style : Style) (row : Row) : String :=
  if row.text = "" then ""
  else String.ofList (List.replicate (style.indentWidth * row.depth) ' ') ++ row.text

/-- Whether a gap shows as an empty line. It does not at the top, nor behind another gap, nor behind an
empty row other than the first of all. The rows before it begin with the nearest; `none` is a gap. -/
def showsGap : List (Option Row) → Bool
  | some row :: before => row.text != "" || before.all Option.isNone
  | _ => false

def settled (before : List (Option Row)) : List (Option Row) → List Row
  | [] => []
  | some row :: rest => row :: settled (some row :: before) rest
  | none :: rest => (if showsGap before then [⟨0, ""⟩] else []) ++ settled (none :: before) rest

end Row

namespace Item

def opening (header : String) : String :=
  header ++ (if Page.joinsBrace header then "" else " ") ++ "\x7b"

mutual

/-- The rows of an item within so many blocks. A text has one for each of its parts. -/
def rows (depth : Nat) : Item → List (Option Row)
  | .line text => (Text.splitOn '\n' text).map fun part => some ⟨depth, part⟩
  | .blank => [none]
  | .block header body suffix =>
    some ⟨depth, opening header⟩ :: (rowsOf (depth + 1) body ++ [some ⟨depth, "\x7d" ++ suffix⟩])

def rowsOf (depth : Nat) : List Item → List (Option Row)
  | [] => []
  | item :: rest => item.rows depth ++ rowsOf depth rest

end

def layout (items : List Item) : List Row := Row.settled [] (rowsOf 0 items)

mutual

/-- Whether one property holds of all lines in an item, and another of all headers and suffixes. -/
def Every (line frame : String → Prop) : Item → Prop
  | .line text => line text
  | .blank => True
  | .block header body suffix => frame header ∧ frame suffix ∧ EveryOf line frame body

def EveryOf (line frame : String → Prop) : List Item → Prop
  | [] => True
  | item :: rest => item.Every line frame ∧ EveryOf line frame rest

end

end Item

namespace Row
variable {style : Style} {row : Row} {before rows first rest : List (Option Row)}

@[simp] theorem showsGap_gap (before : List (Option Row)) : showsGap (none :: before) = false := rfl

@[simp] theorem showsGap_row (row : Row) (before : List (Option Row)) :
    showsGap (some row :: before) = (row.text != "" || before.all Option.isNone) := rfl

theorem ruled_eq_empty_iff : row.ruled style = "" ↔ row.text = "" := by
  unfold ruled
  split
  case isTrue empty => simp [empty]
  case isFalse other => simp [String.append_eq_empty_iff, other]

theorem settled_append : settled before (first ++ rest) =
    settled before first ++ settled (first.reverse ++ before) rest := by
  induction first generalizing before with
  | nil => rfl
  | cons row first ih => cases row <;> simp [settled, ih]

section Full
variable (full : ∀ row, some row ∈ rows → row.text ≠ "")
include full

/-- Where no gap shows, no empty line is next. -/
theorem text_ne_of_head?_settled (hidden : showsGap before = false)
    (next : (settled before rows).head? = some row) : row.text ≠ "" := by
  induction rows generalizing before with
  | nil => cases next
  | cons cell rest ih =>
    cases cell with
    | some first =>
      cases next
      exact full _ List.mem_cons_self
    | none =>
      rw [settled, hidden] at next
      exact ih (fun row member => full row (List.mem_cons_of_mem _ member)) rfl next

/-- Rows that are not empty have no two empty lines in a row. -/
theorem isChain_settled :
    (settled before rows).IsChain fun row next => row.text ≠ "" ∨ next.text ≠ "" := by
  induction rows generalizing before with
  | nil => exact .nil
  | cons cell rest ih =>
    have others : ∀ row, some row ∈ rest → row.text ≠ "" :=
      fun row member => full row (List.mem_cons_of_mem _ member)
    cases cell with
    | some row =>
      refine List.isChain_cons.mpr ⟨fun next _ => .inl (full row List.mem_cons_self), ih others⟩
    | none =>
      rw [settled]
      split
      -- Behind a gap that shows no other one does, so a full line is next.
      case isTrue =>
        refine List.isChain_cons.mpr ⟨fun next member => .inr ?_, ih others⟩
        exact text_ne_of_head?_settled others rfl (Option.mem_def.mp member)
      case isFalse => exact ih others

end Full

end Row

namespace Page
variable {style : Style} {page next last : Page} {before rows first rest : List (Option Row)}
  {header suffix text : String}

/-- The last line is empty, and there is one before it. -/
def EndsEmpty (page : Page) : Prop := ∃ line lines, page.lines = "" :: line :: lines

theorem endsEmpty_iff_of_cons {line : String} (added : next.lines = line :: page.lines) :
    next.EndsEmpty ↔ line = "" ∧ page.lines ≠ [] := by
  simp [EndsEmpty, added, List.ne_nil_iff_exists_cons]

theorem blank_of_kept (kept : page.lines = [] ∨ page.EndsEmpty) : page.blank = page := by
  obtain ⟨lines, depth⟩ := page
  rcases kept with top | ⟨line, others, ended⟩
  · cases top
    rfl
  · cases ended
    rfl

theorem lines_blank_of_shown (shown : ¬ (page.lines = [] ∨ page.EndsEmpty)) :
    page.blank.lines = "" :: page.lines := by
  rw [not_or] at shown
  unfold blank
  split
  case h_1 top => exact absurd top shown.1
  case h_2 ended => exact absurd ⟨_, _, ended⟩ shown.2
  case h_3 => rfl

/-- A second blank adds nothing. -/
theorem blank_blank (page : Page) : page.blank.blank = page.blank := by
  by_cases kept : page.lines = [] ∨ page.EndsEmpty
  · rw [blank_of_kept kept, blank_of_kept kept]
  · have added := lines_blank_of_shown kept
    exact blank_of_kept (.inr ((endsEmpty_iff_of_cons added).mpr ⟨rfl, (not_or.mp kept).1⟩))

/-- The page tells of the rows before it whether there are any, and whether a gap would show. -/
structure Follows (page : Page) (before : List (Option Row)) : Prop where
  top : page.lines = [] ↔ before.all Option.isNone = true
  ended : page.EndsEmpty ↔ before.all Option.isNone = false ∧ Row.showsGap before = false

structure Gets (style : Style) (before : List (Option Row)) (page : Page) (rows : List (Option Row))
    (next : Page) : Prop where
  lines : next.lines = ((Row.settled before rows).map (Row.ruled style)).reverse ++ page.lines
  follows : next.Follows (rows.reverse ++ before)

theorem follows_empty : empty.Follows [] := ⟨by simp [empty], by simp [empty, EndsEmpty]⟩

theorem Follows.shows_iff (follows : page.Follows before) :
    Row.showsGap before = false ↔ page.lines = [] ∨ page.EndsEmpty := by
  rw [follows.top, follows.ended]
  cases top : before.all Option.isNone with
  | false => simp
  | true =>
    -- A gap needs a row right before it.
    cases before with
    | nil => simp [Row.showsGap]
    | cons cell before => cases cell <;> simp_all [Row.showsGap]

namespace Gets

theorem nil (follows : page.Follows before) (same : next.lines = page.lines) :
    Gets style before page [] next := by
  obtain ⟨top, ended⟩ := follows
  rw [EndsEmpty, ← same] at ended
  rw [← same] at top
  exact ⟨same, top, ended⟩

theorem append (gets : Gets style before page first next)
    (more : Gets style (first.reverse ++ before) next rest last) :
    Gets style before page (first ++ rest) last where
  lines := by rw [more.lines, gets.lines, Row.settled_append]; simp
  follows := by simpa using more.follows

theorem row (follows : page.Follows before) (row : Row)
    (added : next.lines = row.ruled style :: page.lines) :
    Gets style before page [some row] next := by
  refine ⟨added, by simp [added], ?_⟩
  rw [endsEmpty_iff_of_cons added, Row.ruled_eq_empty_iff, Ne, follows.top]
  simp

theorem blank (follows : page.Follows before) : Gets style before page [none] page.blank := by
  have shows := follows.shows_iff
  by_cases kept : page.lines = [] ∨ page.EndsEmpty
  · rw [blank_of_kept kept]
    refine ⟨by simp [Row.settled, shows.mpr kept], by simp [follows.top], ?_⟩
    rw [follows.ended]
    simp [shows.mpr kept]
  · have added := lines_blank_of_shown kept
    have shown : Row.showsGap before = true := by simpa using mt shows.mp kept
    have behind := (not_or.mp kept).1
    refine ⟨by simp [Row.settled, shown, Row.ruled, added], ?_, ?_⟩
    · simpa [added] using mt follows.top.mpr behind
    · rw [endsEmpty_iff_of_cons added]
      simpa [behind] using mt follows.top.mpr behind

/-- Rows one below the other. -/
theorem many (follows : page.Follows before) (lines : List Row)
    (added : next.lines = (lines.map (Row.ruled style)).reverse ++ page.lines) :
    Gets style before page (lines.map some) next := by
  induction lines generalizing before page with
  | nil => exact .nil follows added
  | cons row lines ih =>
    have first : Gets style before page [some row] ⟨row.ruled style :: page.lines, page.depth⟩ :=
      .row follows row rfl
    exact first.append (ih first.follows (by simpa using added))

end Gets

section Steps
variable {items : List Item}

theorem splitAt_of_oneLine (single : OneLine text) :
    Text.splitAt (· == '\n') text.toList = [text.toList] := by
  apply Text.splitAt_of_stays
  intro c inside
  simpa using ne_of_mem_of_not_mem inside single

theorem lines_push (single : OneLine text) (page : Page) : (page.push text).lines = text :: page.lines := by
  simp [push, Text.splitOn, splitAt_of_oneLine single]

theorem oneLine_spaces (count : Nat) : OneLine (String.ofList (List.replicate count ' ')) := by
  simp [OneLine]

theorem gets_line (follows : page.Follows before) (text : String) :
    Gets style before page (Item.rows page.depth (.line text)) (page.line style text) := by
  have parts : Item.rows page.depth (.line text) =
      ((Text.splitOn '\n' text).map fun part => Row.mk page.depth part).map some := by
    rw [Item.rows, List.map_map]
    rfl
  rw [parts]
  refine .many follows _ ?_
  simp [line, Row.ruled, Function.comp_def, indent]

theorem gets_opening (follows : page.Follows before) (single : OneLine header) :
    Gets style before page [some ⟨page.depth, Item.opening header⟩] (page.openBlock style header) := by
  refine .row follows _ ?_
  have whole : OneLine (indent style page.depth ++ header ++ (if joinsBrace header then "" else " ") ++
      "\x7b") := by
    simp only [oneLine_append]
    refine ⟨⟨⟨oneLine_spaces _, single⟩, ?_⟩, by decide⟩
    split <;> decide
  refine (lines_push whole page).trans ?_
  simp [Row.ruled, Item.opening, indent, String.append_assoc]

theorem gets_closing (follows : page.Follows before) (single : OneLine suffix) :
    Gets style before page [some ⟨page.depth - 1, "\x7d" ++ suffix⟩] (page.closeBlock style suffix) := by
  refine .row follows _ ?_
  have whole : OneLine (indent style (page.depth - 1) ++ "\x7d" ++ suffix) := by
    simp only [oneLine_append]
    exact ⟨⟨oneLine_spaces _, by decide⟩, single⟩
  refine (lines_push whole { page with depth := page.depth - 1 }).trans ?_
  simp [Row.ruled, indent, String.append_assoc]

mutual

theorem gets_steps (style : Style) (item : Item) (single : item.Every (fun _ => True) OneLine) {page : Page}
    {before : List (Option Row)} (follows : page.Follows before) :
    Gets style before page (item.rows page.depth) (page.run style item.steps) ∧
      (page.run style item.steps).depth = page.depth := by
  cases item with
  | line text => exact ⟨gets_line follows text, rfl⟩
  | blank => exact ⟨.blank follows, page.depth_blank⟩
  | block header body suffix =>
    obtain ⟨oneHeader, oneSuffix, inside⟩ := single
    have opened := @gets_opening style _ _ _ follows oneHeader
    obtain ⟨within, same⟩ := gets_stepsOf style body inside opened.follows
    -- The body leaves its depth as it was, so the brace stands where the header does.
    have closed := @gets_closing style _ _ _ within.follows oneSuffix
    have outer : ((page.openBlock style header).run style (Item.stepsOf body)).depth - 1 = page.depth := by
      rw [same]
      rfl
    rw [outer] at closed
    have steps : page.run style (Item.block header body suffix).steps =
        ((page.openBlock style header).run style (Item.stepsOf body)).closeBlock style suffix := by
      rw [Item.steps, run_cons, run_append]
      rfl
    rw [steps]
    exact ⟨opened.append (within.append closed), outer⟩

/-- Items add their rows, and leave as many blocks open as there were. -/
theorem gets_stepsOf (style : Style) (items : List Item) (single : Item.EveryOf (fun _ => True) OneLine items)
    {page : Page} {before : List (Option Row)} (follows : page.Follows before) :
    Gets style before page (Item.rowsOf page.depth items) (page.run style (Item.stepsOf items)) ∧
      (page.run style (Item.stepsOf items)).depth = page.depth := by
  cases items with
  | nil => exact ⟨.nil follows rfl, rfl⟩
  | cons item rest =>
    obtain ⟨first, same⟩ := gets_steps style item single.1 follows
    obtain ⟨others, sameToo⟩ := gets_stepsOf style rest single.2 first.follows
    rw [same] at others
    rw [Item.stepsOf, run_append]
    exact ⟨first.append others, sameToo.trans same⟩

end

end Steps

section Texts

def Separate (page : Page) : Prop := ∀ line ∈ page.lines, OneLine line

theorem oneLine_of_mem_splitOn {part : String} (member : part ∈ Text.splitOn '\n' text) : OneLine part := by
  obtain ⟨letters, inside, rfl⟩ := List.mem_map.mp member
  intro feed
  rw [String.toList_ofList] at feed
  exact absurd (Text.not_separates_of_mem_splitAt inside feed) (by simp)

theorem Separate.push (separate : page.Separate) (text : String) : (page.push text).Separate := by
  intro line member
  rcases List.mem_append.mp member with added | old
  · exact oneLine_of_mem_splitOn (List.mem_reverse.mp added)
  · exact separate line old

theorem Separate.step (separate : page.Separate) (step : Step) : (page.step style step).Separate := by
  cases step with
  | line text =>
    intro line member
    rcases List.mem_append.mp member with added | old
    · obtain ⟨part, inside, rfl⟩ := List.mem_map.mp (List.mem_reverse.mp added)
      split
      · decide
      · exact oneLine_append.mpr ⟨oneLine_spaces _, oneLine_of_mem_splitOn inside⟩
    · exact separate line old
  | blank =>
    by_cases kept : page.lines = [] ∨ page.EndsEmpty
    · rwa [Page.step, blank_of_kept kept]
    · intro line member
      rw [Page.step, lines_blank_of_shown kept] at member
      rcases List.mem_cons.mp member with rfl | old
      · decide
      · exact separate line old
  | openBlock header => exact separate.push _
  | closeBlock suffix =>
    have lowered : Separate { page with depth := page.depth - 1 } := separate
    exact lowered.push _

theorem Separate.run (separate : page.Separate) (steps : List Step) : (page.run style steps).Separate := by
  induction steps generalizing page with
  | nil => exact separate
  | cons step steps ih => exact ih (separate.step step)

theorem separate_empty : empty.Separate := fun _ member => absurd member List.not_mem_nil

/-- The text of a page, cut at its line feeds, is its lines. -/
theorem splitOn_text (separate : page.Separate) :
    Text.splitOn '\n' page.text = page.lines.reverse ++ [""] := by
  have cut : ∀ lines : List String, (∀ line ∈ lines, OneLine line) →
      Text.splitAt (· == '\n') (lines.flatMap fun line => line.toList ++ ['\n']) =
        lines.map String.toList ++ [[]] := by
    intro lines single
    induction lines with
    | nil => rfl
    | cons line lines ih =>
      have whole := splitAt_of_oneLine (single line List.mem_cons_self)
      rw [List.flatMap_cons, List.append_assoc, List.singleton_append,
        @Text.splitAt_append_cons (· == '\n') '\n' rfl, whole,
        ih fun other member => single other (List.mem_cons_of_mem line member)]
      rfl
  have single := fun line (member : line ∈ page.lines.reverse) => separate line (List.mem_reverse.mp member)
  rw [Text.splitOn, text, String.toList_ofList, cut _ single]
  simp

theorem text_eq_empty_iff : page.text = "" ↔ page.lines = [] := by
  rw [← String.toList_eq_nil_iff, text, String.toList_ofList]
  cases page.lines <;> simp

/-- A page ends with an empty line behind another if its text does. -/
theorem endsEmpty_iff (separate : page.Separate) : page.EndsEmpty ↔ ['\n', '\n'] <:+ page.text.toList := by
  -- From the end, a line is read as its line feed and its letters backwards.
  have backwards : page.text.toList.reverse = page.lines.flatMap fun line => '\n' :: line.toList.reverse := by
    simp [text, List.reverse_flatMap, Function.comp_def]
  rw [← List.reverse_prefix, backwards, EndsEmpty]
  cases found : page.lines with
  | nil => simp
  | cons last others =>
    have single : '\n' ∉ last.toList.reverse := by
      rw [List.mem_reverse]
      exact separate last (found ▸ List.mem_cons_self)
    cases letters : last.toList.reverse with
    | nil =>
      have empty : last = "" := by simpa using letters
      cases others <;> simp [empty]
    | cons c more =>
      rw [letters, List.mem_cons, not_or] at single
      have full : last ≠ "" := by
        rintro rfl
        cases letters
      simp [letters, full, single.1]

/-- A blank is an empty line, unless the text is empty or ends with an empty line behind another. -/
theorem text_blank_eq (separate : page.Separate) : page.blank.text =
    if page.text = "" ∨ ['\n', '\n'] <:+ page.text.toList then page.text else page.text ++ "\n" := by
  have same : page.text = "" ∨ ['\n', '\n'] <:+ page.text.toList ↔ page.lines = [] ∨ page.EndsEmpty :=
    or_congr text_eq_empty_iff (endsEmpty_iff separate).symm
  by_cases kept : page.lines = [] ∨ page.EndsEmpty
  · rw [if_pos (same.mpr kept), blank_of_kept kept]
  · rw [if_neg (mt same.mp kept)]
    apply String.toList_injective
    simp [text, lines_blank_of_shown kept]

end Texts

end Page

namespace Item

mutual

theorem text_ne_of_rows (depth : Nat) (item : Item)
    (full : item.Every (fun text => "" ∉ Text.splitOn '\n' text) fun _ => True)
    {row : Row} (member : some row ∈ item.rows depth) : row.text ≠ "" := by
  cases item with
  | line text =>
    rw [rows] at member
    obtain ⟨part, inside, same⟩ := List.mem_map.mp member
    cases same
    exact ne_of_mem_of_not_mem inside full
  | blank => simp [rows] at member
  | block header body suffix =>
    rw [rows] at member
    rcases List.mem_cons.mp member with opens | inside
    · cases opens
      simp [opening]
    · rcases List.mem_append.mp inside with within | closes
      · exact text_ne_of_rowsOf (depth + 1) body full.2.2 within
      · cases List.mem_singleton.mp closes
        simp

/-- Only lines without letters make empty rows, since a block has its braces. -/
theorem text_ne_of_rowsOf (depth : Nat) (items : List Item)
    (full : EveryOf (fun text => "" ∉ Text.splitOn '\n' text) (fun _ => True) items)
    {row : Row} (member : some row ∈ rowsOf depth items) : row.text ≠ "" := by
  cases items with
  | nil => cases member
  | cons item rest =>
    rw [rowsOf] at member
    rcases List.mem_append.mp member with first | later
    · exact text_ne_of_rows depth item full.1 first
    · exact text_ne_of_rowsOf depth rest full.2 later

end

/-- The page of a tree, cut into its lines, is the layout of the tree. Unless lines are empty themselves,
no line at the top is, and no two in a row are. What decides on a blank is the end of the text, so a second
one adds nothing, whatever the page. -/
theorem splitOn_render (style : Style) (items : List Item)
    (single : EveryOf (fun _ => True) OneLine items) :
    Text.splitOn '\n' (render style items) = (layout items).map (Row.ruled style) ++ [""] ∧
    (EveryOf (fun text => "" ∉ Text.splitOn '\n' text) (fun _ => True) items →
      ((layout items).map (Row.ruled style)).head? ≠ some "" ∧
      ((layout items).map (Row.ruled style)).IsChain fun line next => line ≠ "" ∨ next ≠ "") ∧
    ∀ steps : List Step, ∀ page, page = Page.run style steps .empty →
      page.blank.blank = page.blank ∧
      page.blank.text =
        if page.text = "" ∨ ['\n', '\n'] <:+ page.text.toList then page.text else page.text ++ "\n" := by
  refine ⟨?_, ?_, ?_⟩
  · have gets := (Page.gets_stepsOf style items single Page.follows_empty).1
    have separate : (Page.run style (stepsOf items) .empty).Separate := Page.separate_empty.run _
    rw [render, Page.render, Page.splitOn_text separate, gets.lines, layout]
    simp [Page.empty]
  · intro full
    have rows := fun row (member : some row ∈ rowsOf 0 items) => text_ne_of_rowsOf 0 items full member
    constructor
    · rw [List.head?_map]
      intro first
      obtain ⟨row, next, empty⟩ := Option.map_eq_some_iff.mp first
      exact Row.text_ne_of_head?_settled rows rfl next (Row.ruled_eq_empty_iff.mp empty)
    · rw [List.isChain_map]
      simp only [Ne, Row.ruled_eq_empty_iff]
      exact Row.isChain_settled rows
  · rintro steps page rfl
    exact ⟨Page.blank_blank _, Page.text_blank_eq (Page.separate_empty.run steps)⟩

def noteItems : List Item :=
  [.blank, .line "open", .blank, .blank,
    .block "return call(" [.line "first\nsecond", .blank, .block "inner" [] ","] ")"]

theorem noteItems_splitOn_render : EveryOf (fun _ => True) OneLine noteItems ∧
    Text.splitOn '\n' (render Style.standard noteItems) =
      ["open", "", "return call(\x7b", "  first", "  second", "", "  inner \x7b", "  \x7d,", "\x7d)",
        ""] := by
  have single : EveryOf (fun _ => True) OneLine noteItems := by
    simp only [noteItems, EveryOf, Every]
    decide
  refine ⟨single, ?_⟩
  rw [(splitOn_render Style.standard noteItems single).1]
  decide

end Item

end TypedClient
