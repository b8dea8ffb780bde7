import TypedClient.Text.Pieces

/-!
Paths as texts, and the names that they go through. A path is resolved against a folder by its
text alone, and its ancestors are found by its names alone, so that `..` is a name like any other
until the path is followed.
-/

set_option autoImplicit false

namespace TypedClient

/-- The names on the way from the root, innermost first. -/
abbrev Route := List String

namespace Route

def separator : Char := '/'

def self : String := "."

def around : String := ".."

def isAbsolute (path : String) : Bool := path.toList.head? = some separator

def join (base path : String) : String :=
  if isAbsolute path then path
  else if base.toList.getLast?.all (· == separator) then base ++ path
  else base ++ "/" ++ path

def ofPath (path : String) : Route :=
  ((Text.splitOn separator path).filter (· ≠ "")).reverse

/-- The route on which a path is read: a final separator asks for a folder, as `.` does. -/
def toRead (path : String) : Route :=
  if path.toList.getLast? = some separator then self :: ofPath path else ofPath path

def text (route : Route) : String := "/" ++ Text.join "/" route.reverse

def upward : Route → List Route
  | [] => []
  | name :: outer => (name :: outer) :: upward outer

/-- The route and its ancestors, inwards out, without the root. None of them ends in a `.`. -/
def ancestors (route : Route) : List Route := (upward route).filter (·.head? ≠ some self)

def longestPath : Nat := 4095

def isFollowed (path : String) : Bool := path.utf8ByteSize ≤ longestPath

end Route

end TypedClient
