import TypedClient.Arguments
import TypedClient.Bundle
import TypedClient.Files.Tree
import TypedClient.Probe

/-!
A run of the command: it reads what it needs, plans every file of the client, and only then
writes. Planning sees the disk through a reading function and cannot change it.
-/

set_option autoImplicit false

namespace TypedClient

inductive RunFault where
  | generation (fault : Fault)
  | sourceNotRead (source : String) (reason : FileFault)
  /-- The source is the address of a running service. -/
  | sourceRemote (source : String)
  | folderNotMade (folder : String) (reason : FileFault)
  | fileNotWritten (path : String) (reason : FileFault)
  deriving DecidableEq, Repr

def RunFault.message : RunFault → String
  | generation fault => fault.message
  | sourceNotRead source reason => "Failed to read " ++ source ++ ": " ++ reason.message
  | sourceRemote source => "Failed to read " ++ source ++ ": not a file"
  | folderNotMade folder reason => "Failed to create " ++ folder ++ ": " ++ reason.message
  | fileNotWritten path reason => "Failed to write " ++ path ++ ": " ++ reason.message

namespace Run

structure Plan where
  folder : String
  files : List PlannedFile
  deriving DecidableEq, Repr

abbrev Reader := Route → Except FileFault String

def folderPath (base : String) (arguments : Arguments) : String :=
  Route.join base (arguments.folder.getD arguments.clientName)

def isRemote (source : String) : Bool := Text.startsWith "http" source

def checkPath (path : String) : Except FileFault Unit :=
  if path.toList.contains '\x00' then .error .nulInName
  else if Route.isFollowed path then .ok ()
  else .error .nameTooLong

def readPath (read : Reader) (base path : String) : Except FileFault String := do
  if path = "" then throw .notFound
  checkPath path
  read (Route.toRead (Route.join base path))

def readSource (read : Reader) (base source : String) : Except RunFault String :=
  if isRemote source then .error (.sourceRemote source)
  else (readPath read base source).mapError (.sourceNotRead source)

/-- The schema of a text, and the document to keep a copy of. A text that holds no schema as a
document is read as GraphQL definitions, of which there is no document. -/
def schemaOf (text : String) : Except Fault (ServiceSchema × Json.Value) :=
  let structured := do
    let (_, document) ← SourceText.decode? text
    let schema ← (ServiceSchema.ofValue document).toOption
    return (schema, document)
  match structured with
  | some found => .ok found
  | none => (ServiceSchema.ofDefinitions text).map fun schema => (schema, .null)

def generation {α : Type} (result : Except Fault α) : Except RunFault α :=
  result.mapError .generation

def formats (surrounding : Option ModuleFormat) (arguments : Arguments) :
    Except Fault (ModuleFormat × TypeExtension) := do
  let format ← ModuleFormat.resolve arguments.moduleFormat surrounding
  return (format, TypeExtension.resolve format arguments.typeExtension
    arguments.moduleFormat.isSome surrounding)

def plan (read : Reader) (base : String) (arguments : Arguments) : Except RunFault Plan := do
  let folder := folderPath base arguments
  let surrounding :=
    Manifest.surrounding? (fun route => (read route).toOption) (Route.ofPath folder)
  -- The formats are settled before the source is read, so their faults come first.
  let (format, extension) ← generation (formats surrounding arguments)
  let text ← readSource read base arguments.source
  let (schema, document) ← generation (schemaOf text)
  let settings := arguments.settings format extension
  let artifact ← generation (generate schema settings)
  return ⟨folder, Bundle.plan schema document artifact settings arguments.typesOnly⟩

/-- Where a plan may look: at the manifests around the output folder, and at the source. -/
def places (base : String) (arguments : Arguments) : List Route :=
  Manifest.places (Route.ofPath (folderPath base arguments)) ++
    [Route.toRead (Route.join base arguments.source)]

abbrev Writing := ExceptT RunFault (StateM FileTree)

def createFolder (folder : String) : Writing Unit :=
  ExceptT.adapt (.folderNotMade folder) do
    ExceptT.mk (pure (checkPath folder))
    FileTree.makeFolders (Route.ofPath folder)

def writeFile (disk : Disk) (folder : String) (file : PlannedFile) : Writing Unit := do
  let path := Route.join folder file.name
  ExceptT.adapt (.fileNotWritten path) do
    ExceptT.mk (pure (checkPath path))
    FileTree.writeOn disk (Route.ofPath path) file.contents

/-- Writes the files in their order, up to the first that cannot be written. -/
def Plan.writeOn (disk : Disk) (plan : Plan) : Writing Unit := do
  createFolder plan.folder
  plan.files.forM (writeFile disk plan.folder)

def Plan.write (plan : Plan) : Writing Unit := plan.writeOn .sound

end Run

def runOn (disk : Disk) (base : String) (arguments : Arguments) : Run.Writing Unit := do
  let tree ← get
  match Run.plan tree.read base arguments with
  | .ok plan => plan.writeOn disk
  | .error fault => throw fault

def run (base : String) (arguments : Arguments) : Run.Writing Unit := runOn .sound base arguments

end TypedClient
