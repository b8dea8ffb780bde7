import TypedClient.Fault

/-!
Module formats of generated files and the file extensions that go with them. A
declaration file named `d.ts` takes its format from the surrounding package; the
other two extensions pin it.
-/

set_option autoImplicit false

namespace TypedClient

inductive ModuleFormat where
  | esm
  | cjs
  deriving DecidableEq, Repr

inductive TypeExtension where
  | dts
  | dmts
  | dcts
  deriving DecidableEq, Repr

namespace TypeExtension

def text : TypeExtension → String
  | dts => "d.ts"
  | dmts => "d.mts"
  | dcts => "d.cts"

def importText : TypeExtension → String
  | dts => "js"
  | dmts => "mjs"
  | dcts => "cjs"

end TypeExtension

namespace ModuleFormat

def text : ModuleFormat → String
  | esm => "esm"
  | cjs => "cjs"

def implementationText : ModuleFormat → String
  | esm => "mjs"
  | cjs => "cjs"

/-- The declaration extension that fixes the format whatever the package says. -/
def pinned : ModuleFormat → TypeExtension
  | esm => .dmts
  | cjs => .dcts

def parse (text : String) : Except Fault ModuleFormat :=
  if text = "esm" then .ok esm
  else if text = "cjs" then .ok cjs
  else .error (.invalidModuleFormat text)

def resolve (requested : Option String) (surrounding : Option ModuleFormat) :
    Except Fault ModuleFormat :=
  match requested with
  | some text => parse text
  | none => .ok (surrounding.getD esm)

end ModuleFormat

/-- The extension of the declaration file. A pinned one is used on demand, and for a requested
format that the surrounding package does not have. -/
def TypeExtension.resolve (format : ModuleFormat) (pin requested : Bool)
    (surrounding : Option ModuleFormat) : TypeExtension :=
  if pin then format.pinned
  else if !requested then .dts
  else if surrounding = some format then .dts
  else format.pinned

end TypedClient
