import TypedClient.Decimal.Binary64

/-!
JSON values. Members of objects keep the order in which their keys first came;
integers of 64 bits are told apart from all other numbers.
-/

set_option autoImplicit false

namespace TypedClient.Json

open Decimal (Binary64)

inductive Value where
  | null
  | bool (value : Bool)
  | integer (value : Int)
  | float (value : Binary64)
  | string (text : String)
  | array (items : List Value)
  | object (members : List (String × Value))
  deriving Repr

abbrev Members := List (String × Value)

namespace Value

instance : Inhabited Value := ⟨null⟩

def get? (key : String) : Value → Option Value
  | object members => members.lookup key
  | _ => none

/-- A key that is present keeps its place and takes the new value; any other goes to the end. -/
def insert (key : String) (value : Value) : Members → Members
  | [] => [(key, value)]
  | (name, old) :: rest =>
    if name = key then (name, value) :: rest else (name, old) :: insert key value rest

def fromMembers (members : Members) : Value :=
  object (members.foldl (fun kept (key, value) => insert key value kept) [])

def isInt64 (value : Int) : Bool := 
  decide (-0x8000000000000000 ≤ value) && decide (value < 0x8000000000000000)

def isUInt64 (value : Int) : Bool := 
  decide (0 ≤ value) && decide (value < 0x10000000000000000)

mutual

def depth : Value → Nat
  | array items => depthOfItems items + 1
  | object members => depthOfMembers members + 1
  | _ => 0

def depthOfItems : List Value → Nat
  | [] => 0
  | item :: rest => max item.depth (depthOfItems rest)

def depthOfMembers : List (String × Value) → Nat
  | [] => 0
  | (_, value) :: rest => max value.depth (depthOfMembers rest)

end

end Value

end TypedClient.Json
