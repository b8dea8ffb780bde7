import TypedClient.Text.Pieces
import TypedClient.Yaml.Gap

/-!
Plain and quoted scalars, which consist of words with gaps between them.
-/

set_option autoImplicit false

namespace TypedClient.Yaml

open Text (charOfCode? hexDigit? hexValue?)

def joinPieces (pieces : List (List Char)) : List Char := pieces.reverse.flatten

def isFlowMark (c : Char) : Bool :=
  c == ',' || c == '[' || c == ']' || c == '{' || c == '}'

/-- A word of a plain scalar, which a colon with a gap behind it ends. Inside brackets no colon
may have a mark behind it. -/
def plainWord (inFlow : Bool) : List Char → Option (List Char)
  | [] => some []
  | c :: rest =>
    let follower := rest.head?
    if isGap (some c) then some []
    else if inFlow && c == ':' && follower.any (fun d => isFlowMark d || d == '?') then none
    else if c == ':' && isGap follower then some []
    else if inFlow && isFlowMark c then some []
    else (plainWord inFlow rest).map (c :: ·)

structure ScalarEnd where
  text : List Char
  /-- The scalar was followed by a line break. -/
  broken : Bool
  cursor : Cursor
  deriving Repr

def plainScalar (inFlow : Bool) (indent : Nat) :
    Nat → List (List Char) → Gap → Cursor → Option ScalarEnd
  | 0, _, _, _ => none
  | limit + 1, pieces, gap, cursor =>
    let done : Option ScalarEnd := some ⟨joinPieces pieces, gap.isBroken, cursor⟩
    if cursor.atDocumentMark || cursor.next '#' then done
    else do
      let word ← plainWord inFlow cursor.rest
      if word.isEmpty then done
      else
        let pieces := word :: gap.text :: pieces
        let cursor := cursor.skip word.length
        if !cursor.rest.isEmpty && isGap cursor.peek then
          let (gap, cursor) ← Gap.read indent cursor
          -- Such a line belongs to a collection around the scalar.
          if !inFlow && cursor.column < indent then
            return ⟨joinPieces pieces, gap.isBroken, cursor⟩
          else plainScalar inFlow indent limit pieces gap cursor
        else return ⟨joinPieces pieces, false, cursor⟩

def singleWord : List Char → List Char × Nat
  | '\'' :: '\'' :: rest =>
    let (word, count) := singleWord rest
    ('\'' :: word, count + 2)
  | c :: rest =>
    if c == '\'' || isGap (some c) then ([], 0)
    else
      let (word, count) := singleWord rest
      (c :: word, count + 1)
  | [] => ([], 0)

def escaped? : Char → Option Char
  | '0' => some '\x00'
  | 'a' => some '\x07'
  | 'b' => some '\x08'
  | 't' => some '\t'
  | '\t' => some '\t'
  | 'n' => some '\n'
  | 'v' => some '\x0b'
  | 'f' => some '\x0c'
  | 'r' => some '\r'
  | 'e' => some '\x1b'
  | ' ' => some ' '
  | '"' => some '"'
  | '/' => some '/'
  | '\\' => some '\\'
  | 'N' => some '\u0085'
  | '_' => some '\u00a0'
  | 'L' => some '\u2028'
  | 'P' => some '\u2029'
  | _ => none

def codeLength? : Char → Option Nat
  | 'x' => some 2
  | 'u' => some 4
  | 'U' => some 8
  | _ => none

/-- A word between double quotes, with the number of characters that write it. It also ends before
an escaped line break. -/
def doubleWord : Nat → List Char → Option (List Char × Nat)
  | 0, _ => none
  | _, [] => some ([], 0)
  | limit + 1, '\\' :: c :: rest =>
    if isBreak c then some ([], 0)
    else match escaped? c with
      | some plain => do
        let (word, count) ← doubleWord limit rest
        return (plain :: word, count + 2)
      | none => do
        let length ← codeLength? c
        let digits := rest.take length
        if digits.length ≠ length then none
        let plain ← charOfCode? (← hexValue? digits)
        let (word, count) ← doubleWord limit (rest.drop length)
        return (plain :: word, count + length + 2)
  | _, ['\\'] => none
  | limit + 1, c :: rest =>
    if c == '"' || isGap (some c) then some ([], 0)
    else do
      let (word, count) ← doubleWord limit rest
      return (c :: word, count + 1)

def quotedScalar (single : Bool) : Nat → List (List Char) → Cursor → Option ScalarEnd
  | 0, _, _ => none
  | limit + 1, pieces, cursor =>
    if cursor.atDocumentMark then none
    else do
      let (word, count) ←
        if single then some (singleWord cursor.rest)
        else doubleWord (cursor.rest.length + 1) cursor.rest
      let cursor := cursor.skip count
      let pieces := word :: pieces
      match cursor.peek with
      | none => none
      | some c =>
        if c == (if single then '\'' else '"') then
          return ⟨joinPieces pieces, false, cursor.skip 1⟩
        -- A backslash at the end of a line takes the break away.
        else if c == '\\' then
          let (_, line) ← (cursor.skip 1).lineBreak?
          if line.next '"' then return ⟨joinPieces pieces, false, line.skip 1⟩
          else
            let (gap, cursor) ← Gap.readEscaped line
            quotedScalar single limit (gap.text :: pieces) cursor
        else
          let (gap, cursor) ← Gap.read 0 cursor
          quotedScalar single limit (gap.text :: pieces) cursor

end TypedClient.Yaml
