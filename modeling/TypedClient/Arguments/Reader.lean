import TypedClient.Arguments.Switch

/-!
Reading the words of a command line. A switch may have to wait for its value: it is settled when
the next switch or the source has come, or at the end, so that of two faults the one settled first
is reported.
-/

set_option autoImplicit false

namespace TypedClient.Arguments

structure Pending where
  switch : Switch
  value : Option String
  deriving DecidableEq, Repr

structure Reading where
  /-- The switches that have been settled. -/
  settled : List Switch
  arguments : Arguments
  hasSource : Bool
  pending : Option Pending
  /-- After `--`, no word is a switch. -/
  plain : Bool
  deriving DecidableEq, Repr

namespace Reading

def start : Reading := ⟨[], ofSource "", false, none, false⟩

def take (reading : Reading) (switch : Switch) (given : Option String) :
    Except UsageFault Reading :=
  match switch.value? given with
  | none => .error .invalidValue
  | some value =>
    if switch ∈ reading.settled then .error .repeated
    else do
      let arguments ← switch.assign reading.arguments value
      return { reading with settled := switch :: reading.settled, arguments := arguments }

def settle (reading : Reading) : Except UsageFault Reading :=
  match reading.pending with
  | none => .ok reading
  | some pending => { reading with pending := none }.take pending.switch pending.value

def name (reading : Reading) (switch : Switch) (attached : Option String) :
    Except UsageFault Reading := do
  let reading ← reading.settle
  match attached with
  | none =>
    if switch.takesValue then return { reading with pending := some ⟨switch, none⟩ }
    else reading.take switch none
  | some value => reading.take switch (some value)

def cutLong : List Char → List Char × Option (List Char)
  | [] => ([], none)
  | '=' :: rest => ([], some rest)
  | c :: rest =>
    let (word, value) := cutLong rest
    (c :: word, value)

def long (reading : Reading) (text : List Char) : Except UsageFault Reading :=
  let (word, attached) := cutLong text
  match Switch.ofWord? (String.ofList word) with
  | none => .error .unknownArgument
  | some switch =>
    if attached.isSome && !switch.takesValue then .error .needlessValue
    else reading.name switch (attached.map String.ofList)

def attachedTo : List Char → Option String
  | [] => none
  | '=' :: value => some (String.ofList value)
  | value => some (String.ofList value)

/-- The letters behind one hyphen: the first with a value takes all that follows. -/
def short (reading : Reading) : List Char → Except UsageFault Reading
  | [] => .ok reading
  | letter :: rest =>
    match Switch.ofLetter? letter with
    | none => .error .unknownArgument
    | some switch =>
      if switch.takesValue then reading.name switch (attachedTo rest)
      else do (← reading.name switch none).short rest

def ordinary (reading : Reading) (text : String) : Except UsageFault Reading :=
  match reading.plain, reading.pending with
  | false, some ⟨switch, none⟩ => .ok { reading with pending := some ⟨switch, some text⟩ }
  | _, _ =>
    if reading.hasSource then .error .unknownArgument
    else do
      let reading ← reading.settle
      return { reading with
        arguments := { reading.arguments with source := text }
        hasSource := true }

def word (reading : Reading) (text : String) : Except UsageFault Reading :=
  if reading.plain then reading.ordinary text
  else match text.toList with
    | ['-', '-'] => .ok { reading with plain := true }
    | '-' :: '-' :: rest => reading.long rest
    | '-' :: letter :: rest => reading.short (letter :: rest)
    | _ => reading.ordinary text

def finish (reading : Reading) : Except UsageFault Arguments := do
  let reading ← reading.settle
  if reading.hasSource then return reading.arguments else throw .missingSource

end Reading

def read (words : List String) : Except UsageFault Arguments := do
  (← words.foldlM Reading.word Reading.start).finish

end TypedClient.Arguments
