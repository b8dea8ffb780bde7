import TypedClient.Page
import TypedClient.Proofs.TypeScript.TypeReader

/-! The tokens of JavaScript and of TypeScript.

A text is read one character at a time, with a stack of the braces and template holes that are
open: a closing brace that belongs to a hole leads back into the template. Comments, regular
expressions and line continuations are not known, and a text that has one is not read. In a
template, carriage returns stand for themselves.
-/

set_option autoImplicit false

namespace TypedClient.Script

open Text (isIdentifierChar)
open TypeScript (isBlank unescaped?)

inductive Token where
  /-- A name, a keyword or a whole number. -/
  | word (name : String)
  | mark (c : Char)
  /-- The value of a string literal. -/
  | text (value : String)
  /-- What a template has between two of its holes, before the first or behind the last. -/
  | chunk (value : String)
  | openHole
  | closeHole
  | endTemplate
  | lineEnd
  deriving DecidableEq, Repr

inductive Frame where
  | brace
  | hole
  deriving DecidableEq, Repr

/-- Where the reading stands, with the part of a token that has been read. -/
inductive Mode where
  | code
  | word (read : List Char)
  | text (delimiter : Char) (read : List Char)
  | escape (delimiter : Char) (read : List Char)
  | template (read : List Char)
  | templateEscape (read : List Char)
  | dollar (read : List Char)
  deriving DecidableEq, Repr

structure State where
  mode : Mode
  frames : List Frame
  deriving DecidableEq, Repr

def isMark (c : Char) : Bool := "()[]<>,;:?.=!&|+-*%".toList.contains c

namespace State

def start : State := ⟨.code, []⟩

def closeBrace? : List Frame → Option (List Token × State)
  | .brace :: outer => some ([.mark '\x7d'], ⟨.code, outer⟩)
  | .hole :: outer => some ([.closeHole], ⟨.template [], outer⟩)
  | [] => none

def begin? (frames : List Frame) (c : Char) : Option (List Token × State) :=
  if c = '\n' then some ([.lineEnd], ⟨.code, frames⟩)
  else if isBlank c then some ([], ⟨.code, frames⟩)
  else if c = '\x7b' then some ([.mark c], ⟨.code, .brace :: frames⟩)
  else if c = '\x7d' then closeBrace? frames
  else if c = '\x60' then some ([], ⟨.template [], frames⟩)
  else if c = '\'' || c = '"' then some ([], ⟨.text c [], frames⟩)
  else if isIdentifierChar c then some ([], ⟨.word [c], frames⟩)
  else if isMark c then some ([.mark c], ⟨.code, frames⟩)
  else none

def inTemplate (frames : List Frame) (read : List Char) (c : Char) : List Token × State :=
  if c = '\x60' then ([.chunk (String.ofList read), .endTemplate], ⟨.code, frames⟩)
  else if c = '\\' then ([], ⟨.templateEscape read, frames⟩)
  else if c = '$' then ([], ⟨.dollar read, frames⟩)
  else ([], ⟨.template (read ++ [c]), frames⟩)

def step? : State → Char → Option (List Token × State)
  | ⟨.code, frames⟩, c => begin? frames c
  | ⟨.word read, frames⟩, c =>
    if isIdentifierChar c then some ([], ⟨.word (read ++ [c]), frames⟩)
    else (begin? frames c).map fun (tokens, next) => (.word (String.ofList read) :: tokens, next)
  | ⟨.text delimiter read, frames⟩, c =>
    if c = delimiter then some ([.text (String.ofList read)], ⟨.code, frames⟩)
    else if c = '\\' then some ([], ⟨.escape delimiter read, frames⟩)
    else if c = '\n' || c = '\r' then none
    else some ([], ⟨.text delimiter (read ++ [c]), frames⟩)
  | ⟨.escape delimiter read, frames⟩, c =>
    (unescaped? c).map fun plain => ([], ⟨.text delimiter (read ++ [plain]), frames⟩)
  | ⟨.template read, frames⟩, c => some (inTemplate frames read c)
  | ⟨.templateEscape read, frames⟩, c =>
    (unescaped? c).map fun plain => ([], ⟨.template (read ++ [plain]), frames⟩)
  | ⟨.dollar read, frames⟩, c =>
    if c = '\x7b' then
      some ([.chunk (String.ofList read), .openHole], ⟨.code, .hole :: frames⟩)
    else some (inTemplate frames (read ++ ['$']) c)

def advance? (state : State) : List Char → Option (List Token × State)
  | [] => some ([], state)
  | c :: rest => do
    let (read, next) ← state.step? c
    let (more, last) ← next.advance? rest
    return (read ++ more, last)

def finish? : State → Option (List Token)
  | ⟨.code, []⟩ => some []
  | ⟨.word read, []⟩ => some [.word (String.ofList read)]
  | _ => none

end State

/-- The tokens of a text; none if it is no code, or not all of its brackets are closed. -/
def tokens? (text : String) : Option (List Token) := do
  let (read, last) ← State.start.advance? text.toList
  return read ++ (← last.finish?)

end TypedClient.Script

namespace TypedClient

open Script (Token)

mutual

/-- The tokens of an item, with the braces and the line ends that a page puts around its texts. -/
def Item.tokens? : Item → Option (List Token)
  | .line text => do return (← Script.tokens? text) ++ [.lineEnd]
  | .blank => some []
  | .block header body suffix => do
    let begun ← Script.tokens? header
    let inside ← Item.tokensOf? body
    let ended ← Script.tokens? suffix
    return begun ++ .mark '\x7b' :: .lineEnd :: (inside ++ .mark '\x7d' :: (ended ++ [.lineEnd]))

def Item.tokensOf? : List Item → Option (List Token)
  | [] => some []
  | item :: rest => do return (← item.tokens?) ++ (← Item.tokensOf? rest)

end

end TypedClient
