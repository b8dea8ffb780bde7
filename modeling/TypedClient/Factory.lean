import TypedClient.ModuleFormat
import TypedClient.Page
import TypedClient.Text.Identifier

/-!
The names that a client name stands for, and the parts that clients on the service package share:
imports, the factory function and its exports in both module formats.
-/

set_option autoImplicit false

namespace TypedClient

structure ClientName where
  /-- The name as given, which begins every file name. -/
  stem : String
  /-- The name as an identifier. -/
  identifier : String
  /-- The name of the client's interface. -/
  interface : String
  /-- The name of the function that makes a client. -/
  factory : String
  deriving DecidableEq, Repr

def dropUnderscores (text : String) : String :=
  String.ofList (text.toList.dropWhile (· == '_'))

def ClientName.ofText (text : String) : ClientName :=
  let identifier := Text.toIdentifier text
  let interface := Text.capitalize (dropUnderscores identifier)
  ⟨text, identifier, interface, "generate" ++ interface ++ "Client"⟩

namespace Factory

open Text (quote)

def package : String := "@clientgen/runtime"

def literal (text : String) : String := quote Style.standard.quotes text

def commentSteps (text : Option String) : List Step :=
  match text with
  | none => []
  | some text => (Text.lines text).map fun line => .line ("// " ++ line)

def importText (format : ModuleFormat) (name source : String) : String :=
  match format with
  | .esm => "import \x7b " ++ name ++ " \x7d from " ++ literal source
  | .cjs => "const \x7b " ++ name ++ " \x7d = require(" ++ literal source ++ ")"

def importSteps (format : ModuleFormat) (builder : String) : List Step :=
  [.line (importText format builder package), .line (importText format "join" "node:path"), .blank]

def siblingPath (format : ModuleFormat) (file : String) : String :=
  let folder := match format with
    | .esm => "import.meta.dirname"
    | .cjs => "__dirname"
  "join(" ++ folder ++ ", " ++ literal file ++ ")"

def header (format : ModuleFormat) (name : ClientName) : String :=
  let exported := match format with
    | .esm => "export "
    | .cjs => ""
  exported ++ "async function " ++ name.factory ++ " (opts)"

/-- Opens the function that makes a client, which is left to the caller to close. -/
def beginSteps (format : ModuleFormat) (name : ClientName) : List Step :=
  [.openBlock (header format name)]

def exportSteps (format : ModuleFormat) (name : ClientName) : List Step :=
  .blank :: match format with
    | .esm => [.line ("export default " ++ name.factory)]
    | .cjs =>
      [.line ("module.exports = " ++ name.factory),
       .line ("module.exports.default = " ++ name.factory),
       .line ("module.exports." ++ name.factory ++ " = " ++ name.factory)]

def declarationSteps (name : ClientName) (promised : String) : List Step :=
  [.blank,
   .line ("export function " ++ name.factory ++ "(opts: ClientOptions): Promise<" ++
      promised ++ ">;"),
   .line ("export default " ++ name.factory ++ ";")]

end Factory

end TypedClient
