import TypedClient.Factory
import TypedClient.OpenApi.Request

/-!
How the code of a fetch client reads its argument, and the url that it makes of a path.
-/

set_option autoImplicit false

namespace TypedClient.OpenApi.FetchClient

open Factory (literal)

/-- A chain of member names, read from the argument. Every link may be missing. -/
structure Access where
  members : List String
  deriving DecidableEq, Repr

def memberText (subject name : String) : String :=
  if Text.isIdentifier name then subject ++ "?." ++ name
  else subject ++ "?.[" ++ literal name ++ "]"

def Access.text (access : Access) : String := access.members.foldl memberText "request"

def groupName : Location → String
  | .path => "path"
  | .query => "query"
  | .header => "headers"
  | .cookie => "headers"

def parameterAccess (fullRequest : Bool) (location : Location) (name : String) : Access :=
  if fullRequest then ⟨[groupName location, name]⟩ else ⟨[name]⟩

def bodyAccess : Access := ⟨["body"]⟩

inductive UrlPart where
  | text (content : String)
  | parameter (name : String)
  | query
  deriving DecidableEq, Repr

/-- Cuts a path at each opening brace up to the next closing one. The characters before, and the
name that has begun, are kept in reverse. What an unmatched brace begins is text. -/
def cutPath : List Char → Option (List Char) → List Char → List UrlPart
  | before, none, [] => [.text (String.ofList before.reverse)]
  | before, some name, [] => [.text (String.ofList (before.reverse ++ '{' :: name.reverse))]
  | before, none, c :: rest =>
    if c = '{' then cutPath before (some []) rest else cutPath (c :: before) none rest
  | before, some name, c :: rest =>
    if c = '}' then
      .text (String.ofList before.reverse) :: .parameter (String.ofList name.reverse) ::
        cutPath [] none rest
    else cutPath before (some (c :: name)) rest

def urlParts (path : String) (withQuery : Bool) : List UrlPart :=
  cutPath [] none path.toList ++ if withQuery then [.query] else []

def escapeTemplateChar (c : Char) : List Char :=
  if c = '\\' ∨ c = '\x60' ∨ c = '$' then ['\\', c] else [c]

def UrlPart.template (fullRequest : Bool) : UrlPart → String
  | text content => Text.replaceChars escapeTemplateChar content
  | parameter name =>
    "$\x7bencodeURIComponent(String(" ++ (parameterAccess fullRequest .path name).text ++ "))\x7d"
  | query => "$\x7bquery ? `?$\x7bquery\x7d` : " ++ literal "" ++ "\x7d"

def urlTemplate (fullRequest : Bool) (path : String) (withQuery : Bool) : String :=
  "`$\x7burl\x7d" ++
    Text.join "" ((urlParts path withQuery).map (UrlPart.template fullRequest)) ++ "`"

end TypedClient.OpenApi.FetchClient
