import TypedClient.Yaml.CoreScalar
import TypedClient.Yaml.Node
import TypedClient.Yaml.TokenStream

/-!
JSON values out of YAML texts. Keys must be scalars and become their texts. Aliases stand
for their nodes, as long as the collections of the result are not nested too deeply.
-/

set_option autoImplicit false

namespace TypedClient.Yaml

open Json (Value)

def isLocalTag (tag : Option String) : Bool :=
  tag.any fun tag => tag.toList.head? == some '!'

structure Anchors where
  nodes : List (Nat × Node)
  jumps : Nat

abbrev Conversion := StateT Anchors Option

def followed : Node → Conversion Node
  | .alias target => do
    let anchors ← get
    if anchors.jumps = 0 then failure
    set { anchors with jumps := anchors.jumps - 1 }
    anchors.nodes.lookup target
  | node => return node

def keyText (key : Node) : Conversion String := do
  match ← followed key with
  | .scalar _ text _ => return text
  | _ => failure

def valueWithin : Nat → Node → Conversion Value
  | depth, node => do
    match ← followed node with
    | .scalar properties text plain =>
      if isLocalTag properties.tag then failure
      else scalarValue? properties.tag text plain
    | .sequence properties items =>
      if isLocalTag properties.tag then failure
      else match depth with
        | 0 => failure
        | depth + 1 => return .array (← items.mapM (valueWithin depth))
    | .mapping properties entries =>
      if isLocalTag properties.tag then failure
      else match depth with
        | 0 => failure
        | depth + 1 =>
          let members ← entries.mapM fun (key, value) => do
            let key ← keyText key
            return (key, ← valueWithin depth value)
          return .fromMembers members
    | .alias _ => failure

def deepest : Nat := 128

def jumpsPerPart : Nat := 100

/-- The value of a document's root. An anchor's number that is used again means the last node. -/
def Node.value? (root : Node) : Option Value :=
  ((valueWithin deepest root).run ⟨root.anchored.reverse, root.size * jumpsPerPart⟩).map (·.1)

def read? (text : String) : Option Value := do
  let root ← Node.ofTokens? (← tokens? text)
  root.value?

end TypedClient.Yaml
