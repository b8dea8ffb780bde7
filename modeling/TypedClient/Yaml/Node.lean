import TypedClient.Yaml.Property

/-!
The nodes that tokens make up. An alias stands for an anchored node by a number, which is
the count of the names that were in use when the anchor was set.
-/

set_option autoImplicit false

namespace TypedClient.Yaml

structure Properties where
  anchor : Option Nat
  tag : Option String
  deriving DecidableEq, Repr

def Properties.none : Properties := ⟨.none, .none⟩

inductive Node where
  | alias (target : Nat)
  | scalar (properties : Properties) (text : String) (plain : Bool)
  | sequence (properties : Properties) (items : List Node)
  | mapping (properties : Properties) (entries : List (Node × Node))
  deriving Repr

namespace Node

def empty : Node := scalar Properties.none "" true

def properties : Node → Properties
  | .alias _ => Properties.none
  | scalar properties _ _ => properties
  | sequence properties _ => properties
  | mapping properties _ => properties

mutual

def size : Node → Nat
  | .alias _ => 1
  | scalar _ _ _ => 1
  | sequence _ items => sizeOfItems items + 2
  | mapping _ entries => sizeOfEntries entries + 2

def sizeOfItems : List Node → Nat
  | [] => 0
  | item :: rest => item.size + sizeOfItems rest

def sizeOfEntries : List (Node × Node) → Nat
  | [] => 0
  | (key, value) :: rest => key.size + value.size + sizeOfEntries rest

end

def numbered (node : Node) : List (Nat × Node) :=
  (node.properties.anchor.map fun number => (number, node)).toList

mutual

def anchored : Node → List (Nat × Node)
  | .alias _ => []
  | scalar properties text plain => (scalar properties text plain).numbered
  | sequence properties items => (sequence properties items).numbered ++ anchoredItems items
  | mapping properties entries => (mapping properties entries).numbered ++ anchoredEntries entries

def anchoredItems : List Node → List (Nat × Node)
  | [] => []
  | item :: rest => item.anchored ++ anchoredItems rest

def anchoredEntries : List (Node × Node) → List (Nat × Node)
  | [] => []
  | (key, value) :: rest => key.anchored ++ value.anchored ++ anchoredEntries rest

end

end Node

structure Reading where
  tokens : List Token
  anchors : List (String × Nat)
  namespaces : List (String × String)

abbrev Reader := StateT Reading Option

namespace Reader

def peek : Reader (Option Token) := return (← get).tokens.head?

def advance : Reader Unit := modify fun reading => { reading with tokens := reading.tokens.drop 1 }

def take (token : Token) : Reader Bool := do
  if (← peek) == some token then
    advance
    return true
  else return false

def setAnchor (name : String) : Reader Nat := do
  let reading ← get
  let number := reading.anchors.length
  let others := reading.anchors.filter (·.1 != name)
  set { reading with anchors := (name, number) :: others }
  return number

def anchorNumber (name : String) : Reader Nat := do
  (← get).anchors.lookup name

def fullTag (tag : TagName) : Reader String := do
  if tag.handle.isEmpty then return tag.suffix
  else return (← (← get).namespaces.lookup tag.handle) ++ tag.suffix

def properties : Reader Properties := do
  match ← peek with
  | some (.anchor name) =>
    advance
    match ← peek with
    | some (.tag tag) =>
      advance
      let tag ← fullTag tag
      return ⟨some (← setAnchor name), some tag⟩
    | _ => return ⟨some (← setAnchor name), none⟩
  | some (.tag tag) =>
    advance
    let tag ← fullTag tag
    match ← peek with
    | some (.anchor name) =>
      advance
      return ⟨some (← setAnchor name), some tag⟩
    | _ => return ⟨none, some tag⟩
  | _ => return Properties.none

end Reader

open Reader

mutual

/-- A node. Only some places take block collections, and only values of mappings take sequences
without an indentation of their own. -/
def readNode : Nat → Bool → Bool → Reader Node
  | 0, _, _ => failure
  | limit + 1, block, unindented => do
    match ← peek with
    | some (.alias name) =>
      advance
      return .alias (← anchorNumber name)
    | _ =>
      let properties ← properties
      let next ← peek
      if unindented && next == some .blockEntry then
        return .sequence properties (← readUnindented limit)
      else match next with
        | some (.scalar text plain) =>
          advance
          return .scalar properties text plain
        | some .flowSequenceStart =>
          advance
          return .sequence properties (← readFlowItems limit true)
        | some .flowMappingStart =>
          advance
          return .mapping properties (← readFlowEntries limit true)
        | some .blockSequenceStart =>
          if !block then failure
          advance
          return .sequence properties (← readBlockItems limit)
        | some .blockMappingStart =>
          if !block then failure
          advance
          return .mapping properties (← readBlockEntries limit)
        | _ =>
          if properties == Properties.none then failure
          else return .scalar properties "" true

def readNodeUnless : Nat → List Token → Bool → Bool → Reader Node
  | 0, _, _, _ => failure
  | limit + 1, ends, block, unindented => do
    match ← peek with
    | some token => if ends.contains token then return .empty else readNode limit block unindented
    | none => failure

def readBlockItems : Nat → Reader (List Node)
  | 0 => failure
  | limit + 1 => do
    if ← take .blockEnd then return []
    else if ← take .blockEntry then
      let item ← readNodeUnless limit [.blockEntry, .blockEnd] true false
      return item :: (← readBlockItems limit)
    else failure

def readUnindented : Nat → Reader (List Node)
  | 0 => failure
  | limit + 1 => do
    if ← take .blockEntry then
      let item ← readNodeUnless limit [.blockEntry, .key, .value, .blockEnd] true false
      return item :: (← readUnindented limit)
    else return []

def readBlockEntries : Nat → Reader (List (Node × Node))
  | 0 => failure
  | limit + 1 => do
    if ← take .blockEnd then return []
    else if ← take .key then
      let key ← readNodeUnless limit [.key, .value, .blockEnd] true true
      let value ←
        if ← take .value then readNodeUnless limit [.key, .value, .blockEnd] true true
        else pure .empty
      return (key, value) :: (← readBlockEntries limit)
    else failure

/-- The rest of a sequence in brackets. An item may be a mapping of one entry without braces. -/
def readFlowItems : Nat → Bool → Reader (List Node)
  | 0, _ => failure
  | limit + 1, first => do
    if ← take .flowSequenceEnd then return []
    if !first && !(← take .flowEntry) then failure
    if ← take .flowSequenceEnd then return []
    if ← take .key then
      let key ← match ← peek with
        | some token =>
          if [Token.value, .flowEntry, .flowSequenceEnd].contains token then do
            advance
            pure .empty
          else readNode limit false false
        | none => failure
      let value ←
        if ← take .value then
          readNodeUnless limit [.flowEntry, .flowSequenceEnd] false false
        else pure .empty
      return .mapping Properties.none [(key, value)] :: (← readFlowItems limit false)
    else
      let item ← readNode limit false false
      return item :: (← readFlowItems limit false)

def readFlowEntries : Nat → Bool → Reader (List (Node × Node))
  | 0, _ => failure
  | limit + 1, first => do
    if ← take .flowMappingEnd then return []
    if !first && !(← take .flowEntry) then failure
    if ← take .flowMappingEnd then return []
    if ← take .key then
      let key ← readNodeUnless limit [.value, .flowEntry, .flowMappingEnd] false false
      let value ←
        if ← take .value then readNodeUnless limit [.flowEntry, .flowMappingEnd] false false
        else pure .empty
      return (key, value) :: (← readFlowEntries limit false)
    else
      let key ← readNode limit false false
      return (key, .empty) :: (← readFlowEntries limit false)

end

def standardNamespaces : List (String × String) := [("!", "!"), ("!!", "tag:yaml.org,2002:")]

def readDirectives : Nat → Bool → Reader Unit
  | 0, _ => failure
  | limit + 1, versioned => do
    match ← peek with
    | some (.version major minor) =>
      if versioned || major ≠ 1 || (minor ≠ 1 && minor ≠ 2) then failure
      advance
      readDirectives limit true
    | some (.tagNamespace handle lead) =>
      let reading ← get
      if (reading.namespaces.lookup handle).isSome then failure
      set { reading with namespaces := (handle, lead) :: reading.namespaces }
      advance
      readDirectives limit versioned
    | _ => modify fun reading =>
      { reading with namespaces := reading.namespaces ++ standardNamespaces }

/-- Every node takes a token, and three steps at most. -/
def readingLimit (tokens : List Token) : Nat := 3 * tokens.length + 3

def readRoot (limit : Nat) : Reader Node := do
  let explicit := match ← peek with
    | some (.version _ _) => true
    | some (.tagNamespace _ _) => true
    | some .documentStart => true
    | _ => false
  readDirectives limit false
  if explicit then
    -- Directives need a start behind them, and behind a start the root may be missing.
    if !(← take .documentStart) then failure
    match ← peek with
    | none => return .empty
    | some .documentStart => return .empty
    | some .documentEnd => return .empty
    | some (.version _ _) => return .empty
    | some (.tagNamespace _ _) => return .empty
    | some _ => readNode limit true false
  else readNode limit true false

def Node.ofTokens? (tokens : List Token) : Option Node :=
  if tokens.isEmpty then some .empty
  else
    match (readRoot (readingLimit tokens)).run ⟨tokens, [], []⟩ with
    | some (root, reading) => if reading.tokens.all (· == .documentEnd) then some root else none
    | none => none

end TypedClient.Yaml
