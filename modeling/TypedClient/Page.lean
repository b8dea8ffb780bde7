import TypedClient.Text.Pieces
import TypedClient.Text.Quoted

/-!
Source text as indented lines. A page grows by steps: a line, an empty line, the
opening or the closing of a block. Each function of a generator has a log of the steps that it
takes, and may leave blocks open for its caller to close. Items are what a log in which every
block is closed has written.
-/

set_option autoImplicit false

namespace TypedClient

open Text (QuoteStyle)

structure Style where
  indentWidth : Nat
  quotes : QuoteStyle
  deriving DecidableEq, Repr

def Style.standard : Style := ⟨2, .single⟩

inductive Step where
  | line (text : String)
  | blank
  | openBlock (header : String)
  | closeBlock (suffix : String)
  deriving DecidableEq, Repr

/-- Finished lines, the last one first, and the number of open blocks. -/
structure Page where
  lines : List String
  depth : Nat
  deriving DecidableEq, Repr

namespace Page

def empty : Page := ⟨[], 0⟩

def indent (style : Style) (depth : Nat) : String :=
  String.ofList (List.replicate (style.indentWidth * depth) ' ')

def push (text : String) (page : Page) : Page :=
  { page with lines := (Text.splitOn '\n' text).reverse ++ page.lines }

def line (style : Style) (text : String) (page : Page) : Page :=
  let indented := (Text.splitOn '\n' text).map fun piece =>
    if piece.isEmpty then "" else indent style page.depth ++ piece
  { page with lines := indented.reverse ++ page.lines }

/-- An empty line, unless the page is empty or its text ends with one. -/
def blank (page : Page) : Page :=
  match page.lines with
  | [] => page
  | "" :: _ :: _ => page
  | _ => { page with lines := "" :: page.lines }

/-- Headers that end in an opening bracket or a space are joined to the brace. -/
def joinsBrace (header : String) : Bool :=
  match header.toList.getLast? with
  | none => true
  | some c => c == '(' || c == '[' || c == ' '

def openBlock (style : Style) (header : String) (page : Page) : Page :=
  let space := if joinsBrace header then "" else " "
  let opened := page.push (indent style page.depth ++ header ++ space ++ "\x7b")
  { opened with depth := page.depth + 1 }

/-- Closing without an open block stays at the outermost level. -/
def closeBlock (style : Style) (suffix : String) (page : Page) : Page :=
  let outer := { page with depth := page.depth - 1 }
  outer.push (indent style outer.depth ++ "\x7d" ++ suffix)

def step (style : Style) (page : Page) : Step → Page
  | .line text => page.line style text
  | .blank => page.blank
  | .openBlock header => page.openBlock style header
  | .closeBlock suffix => page.closeBlock style suffix

def run (style : Style) (steps : List Step) (page : Page) : Page :=
  steps.foldl (step style) page

@[simp] theorem run_nil (style : Style) (page : Page) : run style [] page = page := rfl

@[simp] theorem run_cons (style : Style) (first : Step) (rest : List Step) (page : Page) :
    run style (first :: rest) page = run style rest (page.step style first) := rfl

theorem run_append (style : Style) (first rest : List Step) (page : Page) :
    run style (first ++ rest) page = run style rest (run style first page) := by
  simp [run, List.foldl_append]

def text (page : Page) : String :=
  String.ofList (page.lines.reverse.flatMap fun line => line.toList ++ ['\n'])

def render (style : Style) (steps : List Step) : String := (run style steps empty).text

end Page

inductive Item where
  | line (text : String)
  | blank
  | block (header : String) (body : List Item) (suffix : String)
  deriving Repr

mutual

def Item.steps : Item → List Step
  | .line text => [.line text]
  | .blank => [.blank]
  | .block header body suffix => .openBlock header :: (Item.stepsOf body ++ [.closeBlock suffix])

def Item.stepsOf : List Item → List Step
  | [] => []
  | item :: rest => item.steps ++ Item.stepsOf rest

end

def Item.render (style : Style) (items : List Item) : String :=
  Page.render style (Item.stepsOf items)

namespace Item

@[elab_as_elim]
theorem forest_induction {motive : List Item → Prop} (nil : motive [])
    (line : ∀ text rest, motive rest → motive (line text :: rest))
    (blank : ∀ rest, motive rest → motive (blank :: rest))
    (block : ∀ header body suffix rest, motive body → motive rest →
      motive (block header body suffix :: rest)) : (items : List Item) → motive items
  | [] => nil
  | .line text :: rest => line text rest (forest_induction nil line blank block rest)
  | .blank :: rest => blank rest (forest_induction nil line blank block rest)
  | .block header body suffix :: rest =>
    block header body suffix rest (forest_induction nil line blank block body)
      (forest_induction nil line blank block rest)

theorem stepsOf_append {items others : List Item} :
    stepsOf (items ++ others) = stepsOf items ++ stepsOf others := by
  induction items with
  | nil => rfl
  | cons item items ih => simp [stepsOf, ih]

@[simp] theorem stepsOf_nil : stepsOf [] = [] := rfl

@[simp] theorem stepsOf_cons (item : Item) (rest : List Item) :
    stepsOf (item :: rest) = item.steps ++ stepsOf rest := rfl

@[simp] theorem steps_line (text : String) : (line text).steps = [.line text] := rfl

@[simp] theorem steps_blank : blank.steps = [.blank] := rfl

@[simp] theorem steps_block (header : String) (body : List Item) (suffix : String) :
    (block header body suffix).steps = .openBlock header :: (stepsOf body ++ [.closeBlock suffix]) :=
  rfl

@[simp] theorem stepsOf_map_line {α : Type} (text : α → String) (values : List α) :
    stepsOf (values.map fun value => .line (text value)) =
      values.map fun value => .line (text value) := by
  induction values with
  | nil => rfl
  | cons value rest ih => simp [ih]

@[simp] theorem stepsOf_flatMap {α : Type} (items : α → List Item) (values : List α) :
    stepsOf (values.flatMap items) = values.flatMap fun value => stepsOf (items value) := by
  induction values with
  | nil => rfl
  | cons value rest ih => simp [stepsOf_append, ih]

end Item

end TypedClient
