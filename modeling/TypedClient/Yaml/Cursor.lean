/-!
A place in a YAML text, and the classes of characters that its syntax tells apart.
-/

set_option autoImplicit false

namespace TypedClient.Yaml

def isPrintable (c : Char) : Bool :=
  let n := c.toNat
  n == 0x09 || n == 0x0A || n == 0x0D || (0x20 ≤ n && n ≤ 0x7E) || n == 0x85 ||
    (0xA0 ≤ n && n ≤ 0xD7FF) || (0xE000 ≤ n && n ≤ 0xFFFD) || 0x10000 ≤ n

def isBreak (c : Char) : Bool :=
  c == '\n' || c == '\r' || c == '\u0085' || c == '\u2028' || c == '\u2029'

def isWhite (c : Char) : Bool := c == ' ' || c == '\t'

def isGap : Option Char → Bool
  | none => true
  | some c => isWhite c || isBreak c

def isWordChar (c : Char) : Bool := c.isAlphanum || c == '_' || c == '-'

structure Cursor where
  rest : List Char
  /-- The number of bytes before it. -/
  index : Nat
  line : Nat
  column : Nat
  deriving Repr

namespace Cursor

def start (text : List Char) : Cursor := ⟨text, 0, 0, 0⟩

def peek (cursor : Cursor) : Option Char := cursor.rest.head?

def ahead (cursor : Cursor) (distance : Nat) : Option Char := cursor.rest[distance]?

def next (cursor : Cursor) (c : Char) : Bool := cursor.peek == some c

def indexBehind (cursor : Cursor) (count : Nat) : Nat :=
  (cursor.rest.take count).foldl (fun index c => index + c.utf8Size) cursor.index

def skip (cursor : Cursor) (count : Nat) : Cursor :=
  ⟨cursor.rest.drop count, cursor.indexBehind count, cursor.line, cursor.column + count⟩

def takeWhile (cursor : Cursor) (inside : Char → Bool) : List Char × Cursor :=
  let run := cursor.rest.takeWhile inside
  (run, cursor.skip run.length)

def dropWhile (cursor : Cursor) (inside : Char → Bool) : Cursor := (cursor.takeWhile inside).2

def newLine (cursor : Cursor) (count : Nat) : Cursor :=
  ⟨cursor.rest.drop count, cursor.indexBehind count, cursor.line + 1, 0⟩

/-- A line break as it counts in scalars, and the next line. The separators of Unicode stand for
themselves, every other break is a line feed. -/
def lineBreak? (cursor : Cursor) : Option (List Char × Cursor) :=
  match cursor.rest with
  | '\r' :: '\n' :: _ => some (['\n'], cursor.newLine 2)
  | '\u2028' :: _ => some (['\u2028'], cursor.newLine 1)
  | '\u2029' :: _ => some (['\u2029'], cursor.newLine 1)
  | c :: _ => if isBreak c then some (['\n'], cursor.newLine 1) else none
  | [] => none

def atMark (cursor : Cursor) (c : Char) : Bool :=
  cursor.column == 0 && cursor.rest.take 3 == [c, c, c] && isGap (cursor.ahead 3)

def atDocumentMark (cursor : Cursor) : Bool := cursor.atMark '-' || cursor.atMark '.'

def endOfLine? (cursor : Cursor) : Option Cursor :=
  let cursor := cursor.dropWhile isWhite
  let cursor := if cursor.next '#' then cursor.dropWhile (!isBreak ·) else cursor
  match cursor.peek with
  | none => some cursor
  | some _ => cursor.lineBreak?.map (·.2)

end Cursor

end TypedClient.Yaml
