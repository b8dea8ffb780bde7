import TypedClient.Yaml.BlockScalar
import TypedClient.Yaml.FlowScalar
import TypedClient.Yaml.Property

/-!
The tokens of a YAML text. A key shows only by the colon behind it, so the place of each node
that may be one is remembered, and the key's token is put there when the colon comes.
-/

set_option autoImplicit false

namespace TypedClient.Yaml

/-- A node that is a key if a colon follows it. -/
structure Candidate where
  /-- At the indentation of its mapping a node can be nothing but a key. -/
  required : Bool
  /-- The number of tokens before it. -/
  position : Nat
  index : Nat
  line : Nat
  column : Nat

structure TokenStream where
  cursor : Cursor
  /-- The tokens so far, the last one first. -/
  tokens : List Token
  count : Nat
  /-- The column of the innermost block collection, -1 outside of any. -/
  indent : Int
  /-- The columns of the block collections around it. -/
  outerIndents : List Int
  /-- A node may be a key at this place. -/
  keyAllowed : Bool
  /-- The candidate inside the innermost brackets. -/
  candidate : Option Candidate
  /-- The candidates outside of them, one for each pair of brackets. -/
  outerCandidates : List (Option Candidate)

namespace TokenStream

def start (text : List Char) : TokenStream :=
  ⟨Cursor.start text, [], 0, -1, [], true, none, []⟩

def inFlow (stream : TokenStream) : Bool := !stream.outerCandidates.isEmpty

def emit (stream : TokenStream) (token : Token) : TokenStream :=
  { stream with tokens := token :: stream.tokens, count := stream.count + 1 }

def insertAt (stream : TokenStream) (position : Nat) (token : Token) : TokenStream :=
  let behind := stream.count - position
  { stream with
    tokens := stream.tokens.take behind ++ token :: stream.tokens.drop behind
    count := stream.count + 1 }

def skip (stream : TokenStream) (count : Nat) : TokenStream :=
  { stream with cursor := stream.cursor.skip count }

def allowKey (stream : TokenStream) (allowed : Bool) : TokenStream :=
  { stream with keyAllowed := allowed }

def column (stream : TokenStream) : Int := stream.cursor.column

def dropCandidate (stream : TokenStream) : Option TokenStream :=
  if stream.candidate.any (·.required) then none else some { stream with candidate := none }

def markCandidate (stream : TokenStream) : Option TokenStream :=
  if stream.keyAllowed then do
    let stream ← stream.dropCandidate
    let cursor := stream.cursor
    let required := !stream.inFlow && stream.indent == stream.column
    return { stream with
      candidate := some ⟨required, stream.count, cursor.index, cursor.line, cursor.column⟩ }
  else some stream

def longestKey : Nat := 1024

def Candidate.isStale (cursor : Cursor) (candidate : Candidate) : Bool :=
  candidate.line < cursor.line || candidate.index + longestKey < cursor.index

def refresh (cursor : Cursor) (candidate : Option Candidate) : Option (Option Candidate) :=
  match candidate with
  | none => some none
  | some found =>
    if Candidate.isStale cursor found then if found.required then none else some none
    else some candidate

def dropStale (stream : TokenStream) : Option TokenStream := do
  let candidate ← refresh stream.cursor stream.candidate
  let outer ← stream.outerCandidates.mapM (refresh stream.cursor)
  return { stream with candidate := candidate, outerCandidates := outer }

def closing (column : Int) : Int → List Int → Nat × Int × List Int
  | indent, [] => (0, indent, [])
  | indent, outer :: rest =>
    if column < indent then
      let (count, left) := closing column outer rest
      (count + 1, left)
    else (0, indent, outer :: rest)

def unroll (stream : TokenStream) (column : Int) : TokenStream :=
  if stream.inFlow then stream
  else
    let (count, indent, outer) := closing column stream.indent stream.outerIndents
    { stream with
      tokens := List.replicate count .blockEnd ++ stream.tokens
      count := stream.count + count
      indent := indent
      outerIndents := outer }

/-- Opens a block collection at a column, unless there is one. Its token goes to `position`. -/
def roll (stream : TokenStream) (column : Nat) (position : Nat) (token : Token) : TokenStream :=
  if stream.inFlow || (column : Int) ≤ stream.indent then stream
  else
    { stream.insertAt position token with
      indent := column
      outerIndents := stream.indent :: stream.outerIndents }

def rollHere (stream : TokenStream) (token : Token) : TokenStream :=
  stream.roll stream.cursor.column stream.count token

/-- A byte order mark may begin any line. It is a column of its own. -/
def skipByteOrderMark (cursor : Cursor) : Cursor :=
  if cursor.column == 0 && cursor.next '\uFEFF' then cursor.skip 1 else cursor

/-- Skips what stands between tokens. A tab does not indent where a key may be. -/
def skipBetween : Nat → TokenStream → TokenStream
  | 0, stream => stream
  | limit + 1, stream =>
    let isSkipped (c : Char) : Bool :=
      c == ' ' || (c == '\t' && (stream.inFlow || !stream.keyAllowed))
    let cursor := (skipByteOrderMark stream.cursor).dropWhile isSkipped
    let cursor := if cursor.next '#' then cursor.dropWhile (!isBreak ·) else cursor
    match cursor.lineBreak? with
    | some (_, cursor) =>
      skipBetween limit { stream with cursor, keyAllowed := stream.keyAllowed || !stream.inFlow }
    | none => { stream with cursor }

def documentMark (stream : TokenStream) (token : Token) : Option TokenStream := do
  let stream ← (stream.unroll (-1)).dropCandidate
  return ((stream.allowKey false).skip 3).emit token

def directive (stream : TokenStream) : Option TokenStream := do
  let stream ← (stream.unroll (-1)).dropCandidate
  let (token, cursor) ← readDirective (stream.cursor.skip 1)
  return { stream.emit token with cursor, keyAllowed := false }

def openFlow (stream : TokenStream) (token : Token) : Option TokenStream := do
  let stream ← stream.markCandidate
  return ({ stream with
    candidate := none
    outerCandidates := stream.candidate :: stream.outerCandidates
    keyAllowed := true }.skip 1).emit token

def closeFlow (stream : TokenStream) (token : Token) : Option TokenStream := do
  let stream ← stream.dropCandidate
  let stream := match stream.outerCandidates with
    | [] => stream
    | outer :: rest => { stream with candidate := outer, outerCandidates := rest }
  return ((stream.allowKey false).skip 1).emit token

def flowEntry (stream : TokenStream) : Option TokenStream := do
  let stream ← stream.dropCandidate
  return ((stream.allowKey true).skip 1).emit .flowEntry

/-- Inside brackets the mark of an entry is left to the reader of nodes, which has no use for it. -/
def blockEntry (stream : TokenStream) : Option TokenStream := do
  if !stream.inFlow && !stream.keyAllowed then none
  let stream ← (stream.rollHere .blockSequenceStart).dropCandidate
  return ((stream.allowKey true).skip 1).emit .blockEntry

def explicitKey (stream : TokenStream) : Option TokenStream := do
  if !stream.inFlow && !stream.keyAllowed then none
  let stream ← (stream.rollHere .blockMappingStart).dropCandidate
  return ((stream.allowKey (!stream.inFlow)).skip 1).emit .key

/-- A colon makes a key of the candidate, or belongs to an explicit key. -/
def keyEnd (stream : TokenStream) : Option TokenStream :=
  match stream.candidate with
  | some key =>
    let stream := stream.insertAt key.position .key
    let stream := stream.roll key.column key.position .blockMappingStart
    some (({ stream with candidate := none, keyAllowed := false }.skip 1).emit .value)
  | none =>
    if !stream.inFlow && !stream.keyAllowed then none
    else
      let stream := stream.rollHere .blockMappingStart
      some (((stream.allowKey (!stream.inFlow)).skip 1).emit .value)

def anchorOr (stream : TokenStream) (token : String → Token) : Option TokenStream := do
  let stream ← stream.markCandidate
  let (name, cursor) ← anchorName (stream.cursor.skip 1)
  return { stream.emit (token name) with cursor, keyAllowed := false }

def tag (stream : TokenStream) : Option TokenStream := do
  let stream ← stream.markCandidate
  let (name, cursor) ← readTag stream.inFlow stream.cursor
  return { stream.emit (.tag name) with cursor, keyAllowed := false }

def block (stream : TokenStream) (folded : Bool) : Option TokenStream := do
  let stream ← stream.dropCandidate
  let (text, cursor) ← blockScalar folded stream.indent (stream.cursor.skip 1)
  return { stream.emit (.scalar (String.ofList text) false) with cursor, keyAllowed := true }

def quoted (stream : TokenStream) (single : Bool) : Option TokenStream := do
  let stream ← stream.markCandidate
  let found ← quotedScalar single (stream.cursor.rest.length + 1) [] (stream.cursor.skip 1)
  return { stream.emit (.scalar (String.ofList found.text) false) with
    cursor := found.cursor, keyAllowed := false }

def plain (stream : TokenStream) : Option TokenStream := do
  let stream ← stream.markCandidate
  let found ← plainScalar stream.inFlow (stream.indent + 1).toNat (stream.cursor.rest.length + 1) []
    (.spaces []) stream.cursor
  return { stream.emit (.scalar (String.ofList found.text) true) with
    cursor := found.cursor, keyAllowed := found.broken }

def isIndicator (c : Char) : Bool := "-?:,[]\x7b\x7d#&*!|>'\"%@\x60".toList.contains c

def startsPlain (stream : TokenStream) (c : Char) : Bool :=
  let follower := stream.cursor.ahead 1
  (!isGap (some c) && !isIndicator c) || (c == '-' && !follower.any isWhite) ||
    (!stream.inFlow && (c == '?' || c == ':') && !isGap follower)

def token (stream : TokenStream) (c : Char) : Option TokenStream :=
  -- Directives and the marks of documents are looked for in front of everything else.
  let gapBehind := isGap (stream.cursor.ahead 1)
  if stream.cursor.column == 0 && c == '%' then stream.directive
  else if stream.cursor.atMark '-' then stream.documentMark .documentStart
  else if stream.cursor.atMark '.' then stream.documentMark .documentEnd
  else if c == '[' then stream.openFlow .flowSequenceStart
  else if c == '{' then stream.openFlow .flowMappingStart
  else if c == ']' then stream.closeFlow .flowSequenceEnd
  else if c == '}' then stream.closeFlow .flowMappingEnd
  else if c == ',' then stream.flowEntry
  else if c == '-' && gapBehind then stream.blockEntry
  else if c == '?' && (stream.inFlow || gapBehind) then stream.explicitKey
  else if c == ':' && (stream.inFlow || gapBehind) then stream.keyEnd
  else if c == '*' then stream.anchorOr .alias
  else if c == '&' then stream.anchorOr .anchor
  else if c == '!' then stream.tag
  else if c == '|' && !stream.inFlow then stream.block false
  else if c == '>' && !stream.inFlow then stream.block true
  else if c == '\'' then stream.quoted true
  else if c == '"' then stream.quoted false
  else if stream.startsPlain c then stream.plain
  else none

def finish (stream : TokenStream) : Option TokenStream := (stream.unroll (-1)).dropCandidate

/-- The tokens up to the end of the text. Each takes at least one character, so the length of the
text is limit enough. -/
def run : Nat → TokenStream → Option (List Token)
  | 0, _ => none
  | limit + 1, stream => do
    let stream := skipBetween (stream.cursor.rest.length + 1) stream
    let stream ← stream.dropStale
    let stream := stream.unroll stream.column
    match stream.cursor.peek with
    | none => return (← stream.finish).tokens.reverse
    | some c => run limit (← stream.token c)

end TokenStream

def tokens? (text : String) : Option (List Token) :=
  let characters := text.toList
  if characters.all isPrintable then
    TokenStream.run (characters.length + 1) (TokenStream.start characters)
  else none

end TypedClient.Yaml
