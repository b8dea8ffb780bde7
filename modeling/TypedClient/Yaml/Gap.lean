import TypedClient.Yaml.Cursor

/-!
What stands between two words of a flow scalar. White space inside a line counts; one line
break counts as a space, and of several all but the first count.
-/

set_option autoImplicit false

namespace TypedClient.Yaml

inductive Gap where
  | spaces (text : List Char)
  /-- The first break, which an escape can leave empty, and all others. -/
  | breaks (first more : List Char)
  deriving DecidableEq, Repr

namespace Gap

def text : Gap → List Char
  | spaces text => text
  | breaks first more =>
    if first = ['\n'] then if more.isEmpty then [' '] else more else first ++ more

def isBroken : Gap → Bool
  | spaces _ => false
  | breaks _ _ => true

def readMore (indent : Nat) : Nat → List Char → Cursor → Option (List Char × Cursor)
  | 0, _, _ => none
  | limit + 1, more, cursor =>
    match cursor.peek with
    | none => some (more, cursor)
    | some c =>
      if isWhite c then
        if c == '\t' && cursor.column < indent then none
        else readMore indent limit more (cursor.skip 1)
      else match cursor.lineBreak? with
        | some (text, cursor) => readMore indent limit (more ++ text) cursor
        | none => some (more, cursor)

def readEscaped (cursor : Cursor) : Option (Gap × Cursor) := do
  let (more, cursor) ← readMore 0 (cursor.rest.length + 1) [] cursor
  return (breaks [] more, cursor)

def read (indent : Nat) (cursor : Cursor) : Option (Gap × Cursor) := do
  let (white, behind) := cursor.takeWhile isWhite
  match behind.lineBreak? with
  | none => return (spaces white, behind)
  | some (first, behind) =>
    let (more, behind) ← readMore indent (behind.rest.length + 1) [] behind
    return (breaks first more, behind)

end Gap

end TypedClient.Yaml
