import TypedClient.Text.Pieces
import TypedClient.Yaml.Cursor

/-!
Tokens of YAML, and the texts of anchors, aliases, tags and directives.
-/

set_option autoImplicit false

namespace TypedClient.Yaml

open Text (hexValue?)

structure TagName where
  handle : String
  suffix : String
  deriving DecidableEq, Repr

-- The tokens of block collections have no characters of their own; indentation makes them.
inductive Token where
  | version (major minor : Nat)
  | tagNamespace (handle lead : String)
  | documentStart
  | documentEnd
  | blockSequenceStart
  | blockMappingStart
  | blockEnd
  | flowSequenceStart
  | flowSequenceEnd
  | flowMappingStart
  | flowMappingEnd
  | blockEntry
  | flowEntry
  | key
  | value
  | alias (name : String)
  | anchor (name : String)
  | tag (name : TagName)
  | scalar (text : String) (plain : Bool)
  deriving DecidableEq, Repr

def endsAnchor (c : Option Char) : Bool :=
  isGap c || c.any fun c => "?:,]\x7d%@\x60".toList.contains c

def anchorName (cursor : Cursor) : Option (String × Cursor) :=
  let (name, cursor) := cursor.takeWhile isWordChar
  if name.isEmpty || !endsAnchor cursor.peek then none
  else some (String.ofList name, cursor)

def isUriChar (verbatim : Bool) (c : Char) : Bool :=
  isWordChar c || ";/?:@&=+$.%!~*'()".toList.contains c || (verbatim && ",[]".toList.contains c)

def escapedBytes : List Char → Option (List UInt8 × Nat)
  | '%' :: a :: b :: rest => do
    let code ← hexValue? [a, b]
    let (bytes, count) ← escapedBytes rest
    return (code.toUInt8 :: bytes, count + 3)
  | '%' :: _ => none
  | _ => some ([], 0)

def uriText (verbatim : Bool) : Nat → List Char → Option (List Char × Nat)
  | 0, _ => none
  | _, [] => some ([], 0)
  | limit + 1, c :: rest =>
    if c == '%' then do
      let (bytes, count) ← escapedBytes (c :: rest)
      let text ← String.fromUTF8? ⟨bytes.toArray⟩
      let (more, length) ← uriText verbatim limit ((c :: rest).drop count)
      return (text.toList ++ more, length + count)
    else if isUriChar verbatim c then do
      let (more, length) ← uriText verbatim limit rest
      return (c :: more, length + 1)
    else some ([], 0)

def readUri (verbatim : Bool) (cursor : Cursor) : Option (List Char × Cursor) := do
  let (text, count) ← uriText verbatim (cursor.rest.length + 1) cursor.rest
  return (text, cursor.skip count)

def readHandle (cursor : Cursor) : List Char × Cursor :=
  let (word, behind) := (cursor.skip 1).takeWhile isWordChar
  if behind.next '!' then ('!' :: word ++ ['!'], behind.skip 1) else ('!' :: word, behind)

def verbatimTag (cursor : Cursor) : Option (TagName × Cursor) := do
  let (uri, cursor) ← readUri true cursor
  if uri.isEmpty || !cursor.next '>' then none
  else return (⟨"", String.ofList uri⟩, cursor.skip 1)

def shorthandTag (cursor : Cursor) : Option (TagName × Cursor) := do
  let (handle, cursor) := readHandle cursor
  if 1 < handle.length && handle.getLast? == some '!' then
    let (suffix, cursor) ← readUri false cursor
    if suffix.isEmpty then none
    else return (⟨String.ofList handle, String.ofList suffix⟩, cursor)
  else
    let (more, cursor) ← readUri false cursor
    let suffix := handle.drop 1 ++ more
    if suffix.isEmpty then return (⟨"", "!"⟩, cursor)
    else return (⟨"!", String.ofList suffix⟩, cursor)

def readTag (inFlow : Bool) (cursor : Cursor) : Option (TagName × Cursor) := do
  let (tag, cursor) ←
    if cursor.ahead 1 == some '<' then verbatimTag (cursor.skip 2) else shorthandTag cursor
  if isGap cursor.peek || (inFlow && cursor.next ',') then return (tag, cursor) else none

def versionNumber (cursor : Cursor) : Option (Nat × Cursor) :=
  let (digits, cursor) := cursor.takeWhile Char.isDigit
  if digits.isEmpty || 9 < digits.length then none
  else some (Text.digitsValue digits, cursor)

def versionDirective (cursor : Cursor) : Option (Token × Cursor) := do
  let (major, cursor) ← versionNumber (cursor.dropWhile isWhite)
  if !cursor.next '.' then none
  let (minor, cursor) ← versionNumber (cursor.skip 1)
  return (.version major minor, cursor)

def namespaceDirective (cursor : Cursor) : Option (Token × Cursor) := do
  let cursor := cursor.dropWhile isWhite
  if !cursor.next '!' then none
  let (handle, cursor) := readHandle cursor
  if handle ≠ ['!'] && handle.getLast? ≠ some '!' then none
  if !cursor.peek.any isWhite then none
  let (lead, cursor) ← readUri true (cursor.dropWhile isWhite)
  if lead.isEmpty || !isGap cursor.peek then none
  return (.tagNamespace (String.ofList handle) (String.ofList lead), cursor)

def readDirective (cursor : Cursor) : Option (Token × Cursor) := do
  let (name, cursor) := cursor.takeWhile isWordChar
  if !isGap cursor.peek then none
  let (token, cursor) ←
    if String.ofList name = "YAML" then versionDirective cursor
    else if String.ofList name = "TAG" then namespaceDirective cursor
    else none
  return (token, ← cursor.endOfLine?)

end TypedClient.Yaml
