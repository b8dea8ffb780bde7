import TypedClient.OpenApi.Document
import TypedClient.Text.Identifier

/-!
Operation ids, each handed out once. An explicit id is taken when it is free; otherwise
the id is made from the method and the path, with a number behind it if need be.
-/

set_option autoImplicit false

namespace TypedClient.OpenApi

open Text (capitalizeList toIdentifier)

def isTemplate (segment : List Char) : Bool :=
  segment.head? == some '{' && segment.getLast? == some '}'

def dropEnd (c : Char) (text : List Char) : List Char :=
  (text.reverse.dropWhile (· == c)).reverse

def segmentWord (segment : List Char) : List Char :=
  let inner := dropEnd '}' (segment.dropWhile (· == '{'))
  let name := (toIdentifier (String.ofList inner)).toList
  capitalizeList (name.dropWhile (· == '_'))

def joinWith (separator : List Char) : List (List Char) → List Char
  | [] => []
  | [word] => word
  | word :: rest => word ++ separator ++ joinWith separator rest

/-- The id for a method and a path: its segments, the trailing templates after `By`. -/
def synthesizedId (method : Method) (path : String) : String :=
  let segments := (Text.splitAt (· == '/') path.toList).filter (!·.isEmpty)
  let trailing := (segments.reverse.takeWhile isTemplate).length
  let inner := segments.take (segments.length - trailing)
  let templates := segments.drop (segments.length - trailing)
  let words := inner.flatMap segmentWord
  let suffix := if templates.isEmpty then [] else
    "By".toList ++ joinWith "And".toList (templates.map segmentWord)
  if segments.isEmpty then method.text ++ "Root"
  else method.text ++ String.ofList (words ++ suffix)

/-- The base itself for 0, then the base with 2, 3, … behind it. -/
def numberedId (base : String) (number : Nat) : String :=
  if number = 0 then base else base ++ toString (number + 1)

/-- The first numbered id that is free. One more candidate than there are taken ids is enough. -/
def firstFree (taken : List String) (base : String) : String :=
  let candidates := (List.range (taken.length + 1)).map (numberedId base)
  (candidates.find? fun id => !taken.contains id).getD base

def operationIdFor (taken : List String) (method : Method) (path : String)
    (explicit : Option String) : String :=
  match explicit with
  | some text =>
    let id := toIdentifier text
    if taken.contains id then firstFree taken (synthesizedId method path) else id
  | none => firstFree taken (synthesizedId method path)

end TypedClient.OpenApi
