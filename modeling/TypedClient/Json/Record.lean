import TypedClient.Json.Value

/-!
Reading records out of JSON values. A record is an object with its fields as members, or
an array with its fields in order; other members are ignored, other items are not.
-/

set_option autoImplicit false

namespace TypedClient.Json

abbrev Decoder (α : Type) := Value → Option α

namespace Decoder

def string : Decoder String
  | .string text => some text
  | _ => none

def bool : Decoder Bool
  | .bool value => some value
  | _ => none

def any : Decoder Value := some

def list {α : Type} (item : Decoder α) : Decoder (List α)
  | .array items => items.mapM item
  | _ => none

def table {α : Type} (entry : Decoder α) : Decoder (List (String × α))
  | .object members => members.mapM fun (key, value) => return (key, ← entry value)
  | _ => none

def orElse {α : Type} (first second : Decoder α) : Decoder α := fun value =>
  first value <|> second value

def map {α β : Type} (change : α → β) (decoder : Decoder α) : Decoder β := fun value =>
  (decoder value).map change

end Decoder

inductive Row where
  | named (members : Members)
  | positional (items : List Value)

abbrev Fields := StateT Row Option

namespace Fields

def next? (name : String) : Fields (Option Value) := fun row =>
  match row with
  | .named members => some (members.lookup name, row)
  | .positional [] => some (none, row)
  | .positional (item :: rest) => some (some item, .positional rest)

def isNamed : Fields Bool := fun row =>
  match row with
  | .named _ => some (true, row)
  | .positional _ => some (false, row)

def required {α : Type} (name : String) (decoder : Decoder α) : Fields α := do
  match ← next? name with
  | some value => decoder value
  | none => failure

/-- A field that may be absent or null, though an array must not end before it. -/
def optional {α : Type} (name : String) (decoder : Decoder α) : Fields (Option α) := do
  match ← next? name with
  | some .null => return none
  | some value => return some (← decoder value)
  | none => if ← isNamed then return none else failure

/-- A field that may be absent or null, also past the end of an array. -/
def optionalTrailing {α : Type} (name : String) (decoder : Decoder α) : Fields (Option α) := do
  match ← next? name with
  | some .null => return none
  | some value => return some (← decoder value)
  | none => return none

/-- A field with a value for when it is absent; null is not absence. -/
def defaulted {α : Type} (name : String) (default : α) (decoder : Decoder α) : Fields α := do
  match ← next? name with
  | some value => decoder value
  | none => return default

end Fields

def Decoder.record {α : Type} (fields : Fields α) : Decoder α
  | .object members => (fields (.named members)).map (·.1)
  | .array items =>
    match fields (.positional items) with
    | some (value, .positional []) => some value
    | _ => none
  | _ => none

def Decoder.namedRecord {α : Type} (fields : Fields α) : Decoder α
  | .object members => (fields (.named members)).map (·.1)
  | _ => none

/-- One of several words, or an object with one word as its only key and null behind it. -/
def Decoder.word {α : Type} (ofWord? : String → Option α) : Decoder α
  | .string text => ofWord? text
  | .object [(text, .null)] => ofWord? text
  | _ => none

end TypedClient.Json
