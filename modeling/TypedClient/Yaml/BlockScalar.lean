import TypedClient.Text.Pieces
import TypedClient.Yaml.Cursor

/-!
Block scalars: lines of a common indentation, kept as they are or folded.
-/

set_option autoImplicit false

namespace TypedClient.Yaml

inductive Chomping where
  | strip
  | clip
  | keep
  deriving DecidableEq, Repr

structure BlockHeader where
  chomping : Chomping
  /-- How much deeper than its parent the block is indented, if that is said. -/
  increment : Option Nat
  deriving DecidableEq, Repr

def chomping? : Option Char → Option Chomping
  | some '+' => some .keep
  | some '-' => some .strip
  | _ => none

def increment? (c : Option Char) : Option (Option Nat) :=
  match c with
  | some c =>
    if c == '0' then none
    else if c.isDigit then some (some (Text.digitValue c))
    else some none
  | none => some none

def BlockHeader.read (cursor : Cursor) : Option (BlockHeader × Cursor) :=
  match chomping? cursor.peek with
  | some chomping => do
    let cursor := cursor.skip 1
    match ← increment? cursor.peek with
    | some increment => return (⟨chomping, some increment⟩, ← (cursor.skip 1).endOfLine?)
    | none => return (⟨chomping, none⟩, ← cursor.endOfLine?)
  | none => do
    match ← increment? cursor.peek with
    | none => return (⟨.clip, none⟩, ← cursor.endOfLine?)
    | some increment =>
      let cursor := cursor.skip 1
      match chomping? cursor.peek with
      | some chomping => return (⟨chomping, some increment⟩, ← (cursor.skip 1).endOfLine?)
      | none => return (⟨.clip, some increment⟩, ← cursor.endOfLine?)

/-- Empty lines in front of a line, where the indentation is known or still sought: their breaks,
the greatest column that was reached, and the place. A tab may not indent. -/
def blankLines (indent : Option Nat) :
    Nat → List Char → Nat → Cursor → Option (List Char × Nat × Cursor)
  | 0, _, _, _ => none
  | limit + 1, breaks, deepest, cursor =>
    let spaces := (cursor.takeWhile (· == ' ')).1.length
    let count := match indent with
      | some indent => min spaces (indent - cursor.column)
      | none => spaces
    let cursor := cursor.skip count
    let deepest := max deepest cursor.column
    if cursor.next '\t' && indent.all (cursor.column < ·) then none
    else match cursor.lineBreak? with
      | some (text, cursor) => blankLines indent limit (breaks ++ text) deepest cursor
      | none => some (breaks, deepest, cursor)

/-- What was read of a block: its text in pieces, the last one first, the break behind the last
line, the breaks of the empty lines behind it, and whether that line began with white space. -/
structure BlockText where
  pieces : List (List Char)
  lineEnd : List Char
  empties : List Char
  spaced : Bool

/-- What joins the next line to the text. Folding makes a space of a single break between two
lines that do not begin with white space. -/
def BlockText.joint (folded spaced : Bool) (block : BlockText) : List Char :=
  if folded && block.lineEnd == ['\n'] && !block.spaced && !spaced then
    if block.empties.isEmpty then [' '] else block.empties
  else block.lineEnd ++ block.empties

def blockLines (folded : Bool) (indent : Nat) :
    Nat → BlockText → Cursor → Option (BlockText × Cursor)
  | 0, _, _ => none
  | limit + 1, block, cursor =>
    if cursor.column == indent && !cursor.rest.isEmpty then do
      let spaced := cursor.peek.any isWhite
      let joint := block.joint folded spaced
      let (line, cursor) := cursor.takeWhile (!isBreak ·)
      let (lineEnd, cursor) := (cursor.lineBreak?).getD ([], cursor)
      let (empties, _, cursor) ← blankLines (some indent) (cursor.rest.length + 1) [] 0 cursor
      blockLines folded indent limit ⟨line :: joint :: block.pieces, lineEnd, empties, spaced⟩
        cursor
    else some (block, cursor)

def BlockText.chomped (chomping : Chomping) (block : BlockText) : List Char :=
  let tail := match chomping with
    | .strip => []
    | .clip => block.lineEnd
    | .keep => block.lineEnd ++ block.empties
  (tail :: block.pieces).reverse.flatten

/-- The block scalar behind its indicator, inside a parent at column `parent`, which is -1 outside
of any. -/
def blockScalar (folded : Bool) (parent : Int) (cursor : Cursor) : Option (List Char × Cursor) := do
  let (header, cursor) ← BlockHeader.read cursor
  let given : Option Nat := header.increment.map fun increment => increment + parent.toNat
  let (empties, deepest, cursor) ← blankLines given (cursor.rest.length + 1) [] 0 cursor
  let indent := given.getD (max (max deepest (parent + 1).toNat) 1)
  let (block, cursor) ←
    blockLines folded indent (cursor.rest.length + 1) ⟨[], [], empties, false⟩ cursor
  return (block.chomped header.chomping, cursor)

end TypedClient.Yaml
