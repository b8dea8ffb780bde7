import TypedClient.Files.Route

/-!
Folders and text files, as a value. Routes are followed as a file system follows them: each name
is looked up in a folder that is there, and `..` leads back from where the route has come.
Writing puts one entry and keeps all others, also on a disk that fails.
-/

set_option autoImplicit false

namespace TypedClient

inductive FileFault where
  | notFound
  | taken
  | notAFolder
  | isAFolder
  | nameTooLong
  | nulInName
  /-- A failure of a disk that no tree has. -/
  | other (reason : String)
  deriving DecidableEq, Repr

def FileFault.message : FileFault → String
  | notFound => "No such file or directory (os error 2)"
  | taken => "File exists (os error 17)"
  | notAFolder => "Not a directory (os error 20)"
  | isAFolder => "Is a directory (os error 21)"
  | nameTooLong => "File name too long (os error 36)"
  | nulInName => "file name contained an unexpected NUL byte"
  | other reason => reason

inductive Entry where
  | folder
  | file (text : String)
  deriving DecidableEq, Repr

/-- A route without `.` and `..`. -/
abbrev Location := Route

structure FileTree where
  entries : List (Location × Entry)
  deriving DecidableEq, Repr

/-- How a disk fails: why it does not open a file, and why an open file takes no more of its text,
with what it has taken. -/
structure Disk where
  refuses? : FileTree → Location → Option FileFault
  stops? : FileTree → Location → String → Option (FileFault × String)

def Disk.sound : Disk := ⟨fun _ _ => none, fun _ _ _ => none⟩

namespace FileTree

def empty : FileTree := ⟨[]⟩

def get? (tree : FileTree) (location : Location) : Option Entry :=
  if location = [] then some .folder else tree.entries.lookup location

def put (tree : FileTree) (location : Location) (entry : Entry) : FileTree :=
  ⟨(location, entry) :: tree.entries.filter (fun known => known.1 != location)⟩

theorem get?_root (tree : FileTree) : tree.get? [] = some .folder := rfl

theorem get?_put_same (tree : FileTree) {location : Location} (entry : Entry)
    (below : location ≠ []) : (tree.put location entry).get? location = some entry := by
  simp [get?, put, below]

theorem lookup_filter_ne {found wanted : Location} (entries : List (Location × Entry))
    (different : wanted ≠ found) :
    (entries.filter (fun known => known.1 != found)).lookup wanted = entries.lookup wanted := by
  induction entries with
  | nil => rfl
  | cons entry entries ih =>
    obtain ⟨location, entry⟩ := entry
    by_cases same : location = found
    · subst same
      have skipped : (wanted == location) = false := by simpa using different
      simp [List.lookup_cons, ih, skipped]
    · simp [same, List.lookup_cons, ih]

theorem get?_put_of_ne (tree : FileTree) {location wanted : Location} (entry : Entry)
    (different : wanted ≠ location) :
    (tree.put location entry).get? wanted = tree.get? wanted := by
  have skipped : (wanted == location) = false := by simpa using different
  simp [get?, put, List.lookup_cons, skipped, lookup_filter_ne _ different]

def longestName : Nat := 255

def enter (tree : FileTree) (here : Location) (name : String) : Except FileFault Location :=
  match tree.get? here with
  | none => .error .notFound
  | some (.file _) => .error .notAFolder
  | some .folder =>
    -- The special names have no entries of their own, and no length is asked of them.
    if name = Route.self then .ok here
    else if name = Route.around then .ok here.tail
    else if longestName < name.utf8ByteSize then .error .nameTooLong
    else if (tree.get? (name :: here)).isSome then .ok (name :: here)
    else .error .notFound

def follow (tree : FileTree) : Route → Except FileFault Location
  | [] => .ok []
  | name :: outer => do tree.enter (← tree.follow outer) name

def hasNul (route : Route) : Bool := route.any fun name => name.toList.contains '\x00'

def find (tree : FileTree) (route : Route) : Except FileFault (Location × Entry) := do
  if hasNul route then throw .nulInName
  let location ← tree.follow route
  match tree.get? location with
  | some entry => return (location, entry)
  | none => throw .notFound

def folder (tree : FileTree) (route : Route) : Except FileFault Location := do
  match ← tree.find route with
  | (location, .folder) => return location
  | (_, .file _) => throw .notAFolder

def isFolder (tree : FileTree) (route : Route) : Bool := (tree.folder route).isOk

def read (tree : FileTree) (route : Route) : Except FileFault String := do
  match ← tree.find route with
  | (_, .file text) => return text
  | (_, .folder) => throw .isAFolder

def site (tree : FileTree) (name : String) (outer : Route) (reserved : FileFault) :
    Except FileFault Location := do
  if hasNul (name :: outer) then throw .nulInName
  let here ← tree.folder outer
  if name = Route.self ∨ name = Route.around then throw reserved
  if longestName < name.utf8ByteSize then throw .nameTooLong
  return name :: here

def makeFolder (tree : FileTree) : Route → Except FileFault FileTree
  | [] => .error .taken
  | name :: outer => do
    let location ← tree.site name outer .taken
    match tree.get? location with
    | some _ => throw .taken
    | none => return tree.put location .folder

def target (tree : FileTree) : Route → Except FileFault Location
  | [] => .error .isAFolder
  | name :: outer => do
    let location ← tree.site name outer .isAFolder
    match tree.get? location with
    | some .folder => throw .isAFolder
    | _ => return location

def write (tree : FileTree) (route : Route) (text : String) : Except FileFault FileTree := do
  return tree.put (← tree.target route) (.file text)

/-- Opens a file and fills it. One that is not opened stays as it is; one that is opened has lost its
text, and has what the disk has taken if that stops. -/
def writeOn (disk : Disk) (route : Route) (text : String) :
    ExceptT FileFault (StateM FileTree) Unit := do
  let tree ← get
  match tree.target route with
  | .error reason => throw reason
  | .ok location =>
    match disk.refuses? tree location, disk.stops? tree location text with
    | some reason, _ => throw reason
    | none, none => set (tree.put location (.file text))
    | none, some (reason, taken) =>
      set (tree.put location (.file taken))
      throw reason

def settle (route : Route) : ExceptT FileFault (StateM FileTree) Unit := do
  let tree ← get
  match tree.makeFolder route with
  | .ok made => set made
  | .error fault => if tree.isFolder route then pure () else throw fault

/-- The first of the folders, after those above it if they are not there. What has been made
stays when a later one fails. -/
def settleAll : List Route → ExceptT FileFault (StateM FileTree) Unit
  | [] => pure ()
  | route :: above => do
    match (← get).makeFolder route with
    | .error .notFound => settleAll above
    | _ => pure ()
    settle route

def makeFolders (route : Route) : ExceptT FileFault (StateM FileTree) Unit :=
  settleAll (route :: route.ancestors.tail)

def files (tree : FileTree) : List (Location × String) :=
  tree.entries.filterMap fun (location, entry) =>
    match entry with
    | .file text => some (location, text)
    | .folder => none

end FileTree

end TypedClient
