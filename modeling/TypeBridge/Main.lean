import TypeBridge.CommandLine.Program

/-!
# The command line

Runs the program on the files of the machine. Only what a run is about is looked at: the settings file, the
type map, the directories and sources below the input directory, and the way to the declaration file.
-/
namespace TypeBridge.CommandLine

/-! ## Looking at files -/

/-- The bytes of a file. -/
def loadFile (path : String) : IO (List UInt8) := return (← IO.FS.readBinFile path).toList

/-- The directories and sources below a directory. Links to directories are not followed. -/
partial def loadSources (directory : String) : IO FileTree := do
  let mut entries : List (String × FileTree) := []
  for entry in ← ((← IO.currentDir) / directory).readDir do
    let isLink := (← entry.path.symlinkMetadata).type == .symlink
    if ← entry.path.isDir then
      if !isLink then
        entries := (entry.fileName, ← loadSources entry.path.toString) :: entries
    else if Collection.isSourceName [entry.fileName] then
      entries := (entry.fileName, .file (← loadFile entry.path.toString)) :: entries
  return .directory entries.reverse

/-- The file at a path, or the directory without its entries, if something is there. -/
def loadPlace? (path : Path) : IO (Option FileTree) := do
  let place := (← IO.currentDir) / path.text
  if ← place.isDir then return some (.directory [])
  else if ← place.pathExists then return some (.file (← loadFile path.text))
  else return none

/-- The files known so far and what is at a path that is not known yet. -/
def lookAt (system : FileSystem) (path : Path) : IO FileSystem := do
  match system.tree? path, ← loadPlace? path with
  | .error _, some tree =>
    return { system with tree := system.tree.put (path.resolve system.workingDirectory) tree }
  | _, _ => return system

/-- The files that a run with the given paths is about. -/
def lookAround (system : FileSystem) (paths : Paths) : IO FileSystem := do
  let mut system := system
  if let some (.directory _) ← loadPlace? paths.input then
    let tree ← loadSources paths.input.text
    system := { system with tree := system.tree.put (paths.input.resolve system.workingDirectory) tree }
  let onTheWay := (List.range paths.output.parts.length).map fun count =>
    { paths.output with parts := paths.output.parts.take count }
  for path in Settings.path :: paths.typeMap.toList ++ onTheWay ++ [paths.input, paths.output] do
    system ← lookAt system path
  return system

/-- Nothing but the working directory. -/
def emptySystem : IO FileSystem := do
  let workingDirectory := (Path.ofText (← IO.currentDir).toString).parts
  let empty : FileTree := .directory []
  return { tree := empty.put workingDirectory empty, workingDirectory }

/-! ## Environment -/

/-- The variables of the environment. -/
def loadEnvironment : IO (List (String × String)) := do
  let bytes ← loadFile "/proc/self/environ"
  match Text.decodeUtf8 bytes with
  | .error _ => return []
  | .ok text =>
    return (Text.splitOn (· == '\x00') text).filterMap fun entry =>
      match Text.splitFirst '=' entry with
      | (name, some value) => some (.ofList name, .ofList value)
      | (_, none) => none

/-! ## Effects -/

/-- Writes the files that are new or changed. -/
def storeChanges (before after : FileSystem) : IO Unit := do
  for (names, bytes) in after.tree.files do
    if before.tree.get? names != some (.file bytes) then
      IO.FS.createDirAll (Path.text ⟨"/", names.dropLast⟩)
      IO.FS.writeBinFile (Path.text ⟨"/", names⟩) ⟨bytes.toArray⟩

/-- Writes what is new on the console. -/
def display (console : Console) : IO Unit := do
  let answers ← IO.getStdout
  answers.putStr console.answers
  answers.flush
  (← IO.getStderr).putStr console.complaints

/-- Keeps looking for changes below the directory that is watched, and generates after each. -/
partial def followChanges (paths : Paths) (watch : Watch) (system : FileSystem) : IO Unit := do
  IO.sleep 500
  let current ← lookAround (← emptySystem) paths
  let changes := (changedSources watch.input system current).map Path.text
  let state := watch.step ⟨current, {}⟩ { edit := id, changes }
  display state.console
  storeChanges current state.system
  followChanges paths watch state.system

/-- The paths of a run, when the arguments and the settings file can be read. -/
def pathsOf? (arguments : List String) (environment : List (String × String)) (system : FileSystem) :
    Option Paths :=
  match request arguments, Settings.content system with
  | .ok (.run arguments), .ok content => some (pathsFor arguments (Settings.ofContent environment content))
  | _, _ => none

end TypeBridge.CommandLine

open TypeBridge CommandLine in
/-- Runs the program with the arguments of the command line. -/
def main (arguments : List String) : IO UInt32 := do
  let environment ← loadEnvironment
  let mut system ← lookAt (← emptySystem) Settings.path
  let paths? := pathsOf? arguments environment system
  if let some paths := paths? then system ← lookAround system paths
  match start arguments environment system with
  | .error fault =>
    IO.eprintln (complaint fault.message)
    return 1
  | .ok (.ended exit state) =>
    display state.console
    storeChanges system state.system
    return exit.toUInt32
  | .ok (.watching watch state) =>
    display state.console
    storeChanges system state.system
    if let some paths := paths? then followChanges paths watch state.system
    return 0
