import TypedClient.Arguments.Reader
import TypedClient.Run

/-!
The command. It reads every place at which a plan may look, plans the run, and carries the plan
out on the disk.
-/

set_option autoImplicit false

namespace TypedClient.Command

def fileFault : IO.Error → FileFault
  | .noFileOrDirectory _ _ _ => .notFound
  | .alreadyExists _ _ _ => .taken
  | .inappropriateType _ code _ => if code = 21 then .isAFolder else .notAFolder
  | error => .other (toString error)

def readPlace (route : Route) : IO (Route × Except FileFault String) := do
  match ← (IO.FS.readFile route.text).toBaseIO with
  | .ok text => return (route, .ok text)
  | .error error => return (route, .error (fileFault error))

def attempt (action : IO Unit) (stopped : FileFault → RunFault) : ExceptT RunFault IO Unit := do
  match ← action.toBaseIO with
  | .ok () => return
  | .error error => throw (stopped (fileFault error))

def writePlan (plan : Run.Plan) : ExceptT RunFault IO Unit := do
  attempt (IO.FS.createDirAll plan.folder) (.folderNotMade plan.folder)
  for file in plan.files do
    let path := Route.join plan.folder file.name
    attempt (IO.FS.writeFile path file.contents) (.fileNotWritten path)

def carryOut (base : String) (arguments : Arguments) : IO (Except RunFault Unit) := do
  let seen ← (Run.places base arguments).mapM readPlace
  let read : Run.Reader := fun route => (seen.lookup route).getD (.error .notFound)
  match Run.plan read base arguments with
  | .error fault => return .error fault
  | .ok plan => (writePlan plan).run

def exitCode : UsageFault → UInt32
  | .helpWanted => 0
  | .versionWanted => 0
  | _ => 2

end TypedClient.Command

open TypedClient in
def main (words : List String) : IO UInt32 := do
  match Arguments.read words with
  | .error fault =>
    IO.eprintln fault.message
    return Command.exitCode fault
  | .ok arguments =>
    match ← Command.carryOut (← IO.currentDir).toString arguments with
    | .ok () => return 0
    | .error fault =>
      IO.eprintln fault.message
      return 1
