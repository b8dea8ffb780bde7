import TypedClient.Files.Route
import TypedClient.Json.Printer
import TypedClient.Json.Reader
import TypedClient.ModuleFormat

/-!
Package manifests: what they say of a package's module format, and the one that goes with
a client.
-/

set_option autoImplicit false

namespace TypedClient.Manifest

open Json (Value)

def fileName : String := "package.json"

def esmType : String := "module"

/-- The format that a manifest declares, which is CommonJS unless it says otherwise; none if it
is not JSON. -/
def declaredFormat? (text : String) : Option ModuleFormat :=
  (Json.read? text).map fun manifest =>
    match manifest.get? "type" with
    | some (.string type) => if type = esmType then .esm else .cjs
    | _ => .cjs

/-- The places of manifests around a folder, its own first and that of the root never. -/
def places (folder : Route) : List Route :=
  (folder.ancestors.map (fileName :: ·)).filter fun place => Route.isFollowed place.text

/-- The format of the package around a folder: the nearest manifest that can be read and is JSON
decides. -/
def surrounding? (read : Route → Option String) (folder : Route) : Option ModuleFormat :=
  (places folder).findSome? fun place => (read place).bind declaredFormat?

def typesPath (name : String) (extension : TypeExtension) : String :=
  "./" ++ name ++ "." ++ extension.text

def mainPath (name : String) (format : ModuleFormat) : String :=
  "./" ++ name ++ "." ++ format.implementationText

def value (name : String) (format : ModuleFormat) (extension : TypeExtension)
    (hasImplementation : Bool) : Value :=
  .object
    ([("name", .string name), ("types", .string (typesPath name extension))] ++
      (if format = .esm then [("type", .string esmType)] else []) ++
      (if hasImplementation then [("main", .string (mainPath name format))] else []))

def text (name : String) (format : ModuleFormat) (extension : TypeExtension)
    (hasImplementation : Bool) : String :=
  (value name format extension hasImplementation).pretty 0

end TypedClient.Manifest
