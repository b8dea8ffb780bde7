import TypedClient.Text.Pieces
import TypedClient.Url.Host

/-!
The path of a url: what stands between its host and its query, with dot segments resolved
and everything percent-encoded that has to be.
-/

set_option autoImplicit false

namespace TypedClient.Url

open Text (splitAt)

inductive SchemeKind where
  | file
  | web
  | other
  deriving DecidableEq, Repr

def SchemeKind.ofName (name : String) : SchemeKind :=
  if name = "file" then .file
  else if ["http", "https", "ws", "wss", "ftp"].contains name then .web
  else .other

def SchemeKind.isSlash (kind : SchemeKind) (c : Char) : Bool :=
  c == '/' || (c == '\\' && kind != .other)

def cleaned (text : String) : List Char :=
  let isOuter (c : Char) : Bool := c.toNat ≤ 0x20
  let inner := ((text.toList.dropWhile isOuter).reverse.dropWhile isOuter).reverse
  inner.filter fun c => c != '\t' && c != '\n' && c != '\r'

def isSchemeChar (c : Char) : Bool := c.isAlphanum || c == '+' || c == '-' || c == '.'

def schemeOf? (text : List Char) : Option (SchemeKind × List Char) :=
  let name := text.takeWhile isSchemeChar
  match name, text.dropWhile isSchemeChar with
  | c :: _, ':' :: rest =>
    if c.isAlpha then some (.ofName (String.ofList (name.map Char.toLower)), rest) else none
  | _, _ => none

def hexDigit (digit : Nat) : Char :=
  if digit < 10 then Char.ofNat ('0'.toNat + digit) else Char.ofNat ('A'.toNat + digit - 10)

def percentEncode (c : Char) : List Char :=
  (String.singleton c).toUTF8.toList.flatMap fun byte =>
    ['%', hexDigit (byte.toNat / 16), hexDigit (byte.toNat % 16)]

def isControl (c : Char) : Bool := c.toNat < 0x20 || 0x7F ≤ c.toNat

def encodeSegmentChar (c : Char) : List Char :=
  if isControl c || " \"<>`#?\x7b\x7d".toList.contains c then percentEncode c else [c]

def encodeOpaqueChar (c : Char) : List Char := if isControl c then percentEncode c else [c]

def isQueryStart (c : Char) : Bool := c == '?' || c == '#'

def isSingleDot (segment : List Char) : Bool :=
  [".", "%2e"].contains (String.ofList (segment.map Char.toLower))

def isDoubleDot (segment : List Char) : Bool :=
  ["..", ".%2e", "%2e.", "%2e%2e"].contains (String.ofList (segment.map Char.toLower))

/-- Segments such as `C:`, which dots do not remove. -/
def isDrive : List Char → Bool
  | c :: d :: rest =>
    c.isAlpha && (d == ':' || d == '|') && (rest.isEmpty || rest.head? == some '\\')
  | _ => false

def parent : List (List Char) → List (List Char)
  | [] => []
  | segment :: rest => if isDrive segment then segment :: rest else rest

def normalSegment (kind : SchemeKind) (before : List (List Char)) (segment : List Char) :
    List Char :=
  match segment with
  | [c, d] => if kind == .file && before.isEmpty && isDrive [c, d] then [c, ':'] else segment
  | _ => segment

def resolve (kind : SchemeKind) : List (List Char) → List (List Char) → List (List Char)
  | before, [] => before.reverse
  | before, segment :: rest =>
    let next :=
      if isDoubleDot segment then parent before
      else if isSingleDot segment then before
      else normalSegment kind before segment :: before
    match rest with
    -- Dots at the end leave the slash in front of them.
    | [] =>
      if isDoubleDot segment || isSingleDot segment then next.reverse ++ [[]] else next.reverse
    | _ => resolve kind next rest

def joinSegments (segments : List (List Char)) : String :=
  String.ofList (segments.flatMap ('/' :: ·))

def segmentedPath (kind : SchemeKind) (text : List Char) : String :=
  let encoded := (splitAt kind.isSlash (text.takeWhile (!isQueryStart ·))).map
    (·.flatMap encodeSegmentChar)
  let segments := resolve kind [] encoded
  if kind == .file then
    match segments.dropWhile (·.isEmpty) with
    | [] => "/"
    | kept => joinSegments kept
  else joinSegments segments

def pathBehindHost (kind : SchemeKind) (text : List Char) : String :=
  match text with
  | [] => if kind == .other then "" else "/"
  | c :: rest =>
    if kind.isSlash c then segmentedPath kind rest
    else if kind == .other && isQueryStart c then ""
    else segmentedPath kind text

/-- A host and what follows it. A colon ends it, except inside square brackets. -/
def cutHost (kind : SchemeKind) : Bool → List Char → List Char × List Char
  | _, [] => ([], [])
  | bracketed, c :: rest =>
    if kind.isSlash c || isQueryStart c || (c == ':' && !bracketed) then ([], c :: rest)
    else
      let inside := if c == '[' then true else if c == ']' then false else bracketed
      let (host, rest) := cutHost kind inside rest
      (c :: host, rest)

/-- What follows a port, which has digits only and 16 bits. -/
def dropPort (text : List Char) : Except UrlFault (List Char) :=
  let digits := text.takeWhile Char.isDigit
  let value := Text.digitsValue digits
  if 65535 < value then .error .invalidPort
  else match text.dropWhile Char.isDigit with
    | [] => .ok []
    | c :: rest =>
      if c == '/' || c == '\\' || isQueryStart c then .ok (c :: rest) else .error .invalidPort

def cutUser (kind : SchemeKind) (text : List Char) : Option (List Char) × List Char :=
  let isInside (c : Char) : Bool := !(kind.isSlash c || isQueryStart c)
  let authority := text.takeWhile isInside
  let host := (authority.reverse.takeWhile (· != '@')).reverse
  if host.length = authority.length then (none, text)
  else (some (authority.take (authority.length - host.length - 1)),
    host ++ text.dropWhile isInside)

def pathBehindSlashes (kind : SchemeKind) (text : List Char) : Except UrlFault String := do
  let (user, text) := cutUser kind text
  if user == some [] then
    match text with
    | c :: _ => if kind.isSlash c || isQueryStart c then throw .emptyHost
    | [] => pure ()
  let named := user.any fun user => !user.isEmpty && user != [':']
  let (host, rest) := cutHost kind false text
  if kind == .web then
    if host.isEmpty then throw .emptyHost
    let _ ← specialHost host
  else checkOpaque host
  if host.isEmpty && rest.head? == some ':' then throw .emptyHost
  let rest ← match rest with
    | ':' :: port => dropPort port
    | _ => pure rest
  if host.isEmpty && named then throw .emptyHost
  return pathBehindHost kind rest

def localHost : List Char := "localhost".toList

/-- The path of a file, behind the scheme. Behind a host that is left out the slash is a segment
of its own, so that a drive is not the first one. -/
def filePath (text : List Char) : Except UrlFault String :=
  match text with
  | a :: b :: rest =>
    if SchemeKind.file.isSlash a && SchemeKind.file.isSlash b then do
      let isInside (c : Char) : Bool := !(SchemeKind.file.isSlash c || isQueryStart c)
      let host := rest.takeWhile isInside
      let behind := rest.dropWhile isInside
      if host.isEmpty then return segmentedPath .file behind
      else if host.length = 2 && isDrive host then return segmentedPath .file rest
      else if (← specialHost host) = localHost then return segmentedPath .file behind
      else return pathBehindHost .file behind
    else return pathBehindHost .file text
  | _ => return pathBehindHost .file text

def otherPath (text : List Char) : Except UrlFault String :=
  match text with
  | '/' :: '/' :: rest => pathBehindSlashes .other rest
  | '/' :: rest => return segmentedPath .other rest
  | _ => return String.ofList ((text.takeWhile (!isQueryStart ·)).flatMap encodeOpaqueChar)

def pathOf (url : String) : Except UrlFault String :=
  match schemeOf? (cleaned url) with
  | none => .error .noBase
  | some (.file, rest) => filePath rest
  | some (.web, rest) => pathBehindSlashes .web (rest.dropWhile SchemeKind.web.isSlash)
  | some (.other, rest) => otherPath rest

end TypedClient.Url
