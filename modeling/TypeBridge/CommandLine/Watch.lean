import TypeBridge.Collection.Discovery
import TypeBridge.CommandLine.Arguments
import TypeBridge.Generation

/-!
# Watching

Which changes of files matter, and what is done about them. A change matters when the file is a source
below the directory that is watched, outside of the directories that are left out, and when no name in its
whole path is one that is never watched. The loop is given twice: as the states it goes through, and with
all that may be raised in it.

Limitations: how changes are noticed, for how long they are gathered, and the pause after a generation are
left out; steps say what comes of them.
-/
namespace TypeBridge.CommandLine

/-! ## Changes that matter -/

/-- The changes that matter below a directory. Mirrors `CSharpSourceFilter`. -/
structure ChangeFilter where
  /-- The names of the directory that is watched, from the root on. -/
  root : List String
  excluded : List String
  deriving DecidableEq, Repr

namespace ChangeFilter

/-- Directories in which nothing is ever watched. -/
def unwatchedDirectories : List String := [
  "__pycache__", ".git", ".hg", ".svn", ".tox", ".venv", ".idea", "node_modules", ".mypy_cache",
  ".pytest_cache", ".hypothesis"]

/-- The beginnings of the names of sources that are never watched. -/
def unwatchedBeginnings : List String := [".#", "flycheck_"]

/-- The names of a path as it is written, where its root counts as a name. -/
def writtenNames (path : Path) : List String :=
  (if path.isAbsolute then [path.root] else []) ++ path.parts

/-- The directories that a path goes through below the one that is watched; all of them when the path is
not below it.
Mirrors `directories_below_root`. -/
def directoriesBelow (filter : ChangeFilter) (workingDirectory : List String) (path : Path) :
    List String :=
  if path.root = "/" ∧ filter.root.isPrefixOf path.parts then
    (path.parts.drop filter.root.length).dropLast
  else
    let resolved := path.resolve workingDirectory
    if filter.root.isPrefixOf resolved then (resolved.drop filter.root.length).dropLast
    else (writtenNames path).dropLast

/-- Whether a name in a path, given by its text, is one that is never watched.
Mirrors the inherited `DefaultFilter`. -/
def isUnwatched (path : List Char) : Bool :=
  let names := (Text.splitOn (· == '/') (path.dropWhile (· == '/'))).map String.ofList
  names.any unwatchedDirectories.contains ||
    unwatchedBeginnings.any fun beginning => beginning.toList.isPrefixOf (names.getLastD "").toList

/-- Whether the change of the file at a path matters. Mirrors `CSharpSourceFilter.__call__`. -/
def accepts (filter : ChangeFilter) (workingDirectory : List String) (path : String) : Bool :=
  Text.endsWith Collection.sourceSuffix.toList path.toList &&
    !(filter.directoriesBelow workingDirectory (.ofText path)).any filter.excluded.contains &&
    !isUnwatched path.toList

/-- The filter for a directory. -/
def ofRoot (workingDirectory : List String) (root : Path) (excluded : List String) : ChangeFilter :=
  { root := root.resolve workingDirectory, excluded := excluded }

end ChangeFilter

/-! ## Looking for changes -/

/-- The sources below a directory whose content is not the same in two file systems. -/
def changedSources (input : Path) (before after : FileSystem) : List Path :=
  let sources (system : FileSystem) : List Path :=
    Collection.sourceFiles { excludedDirectories := [] } system input
  (sources before ++ sources after).eraseDups.filter fun path => before.file? path != after.file? path

/-! ## Announcements -/

/-- Some texts in order, each of them once. -/
def inOrder (texts : List String) : List String :=
  (texts.mergeSort fun a b => a ≤ b).eraseDups

/-- The lines that announce the changes of some files.
Mirrors the lines that `watch_and_regenerate` prints. -/
def announcement (paths : List String) : List String :=
  let written := paths.map fun path => String.ofList (Text.replace ['\\'] ['/'] path.toList)
  "" :: (Generation.mark ++ "Change detected:") :: (inOrder written).map ("  - " ++ ·)

/-! ## The loop -/

/-- A step of what happens while a directory is watched: files are edited, and then paths are reported as
changed. -/
structure WatchStep where
  edit : FileSystem → FileSystem
  changes : List String

/-- The files and what has been written to the console. -/
structure WatchState where
  system : FileSystem
  console : Console

/-- What is watched, and what is generated. -/
structure Watch where
  options : Options
  workers : Nat
  input : Path
  output : Path

namespace Watch

/-- The changes that matter. -/
def filter (watch : Watch) (system : FileSystem) : ChangeFilter :=
  .ofRoot system.workingDirectory watch.input watch.options.excludedDirectories

variable [Collection.FaultFinder]

/-- A generation of what is watched. -/
def generation (watch : Watch) (system : FileSystem) (console : Console) : Generation.Result :=
  Generation.runAndSummarize watch.options system watch.workers watch.input watch.output console

/-- Generates once. If the declaration file cannot be written, this is told.
Mirrors the guarded call of `run` in `watch_and_regenerate`. -/
def regenerate (watch : Watch) (state : WatchState) : WatchState :=
  let result := watch.generation state.system state.console
  match result.written with
  | .ok system => ⟨system, result.console⟩
  | .error unfinished =>
    ⟨unfinished.left, result.console.complain (complaint unfinished.message)⟩

/-- What is done in a step. Mirrors the body of the loop of `watch_and_regenerate`. -/
def step (watch : Watch) (state : WatchState) (step : WatchStep) : WatchState :=
  let system := step.edit state.system
  let changes := step.changes.filter ((watch.filter system).accepts system.workingDirectory)
  if changes.isEmpty then { state with system := system }
  else
    let console := (announcement changes).foldl Console.say state.console
    watch.regenerate ⟨system, console⟩

/-- The states before each of some steps, and the one after them. -/
def run (watch : Watch) (state : WatchState) : List WatchStep → List WatchState × WatchState
  | [] => ([], state)
  | first :: steps =>
    let (before, last) := run watch (watch.step state first) steps
    (state :: before, last)

/-! ## What is raised in the loop -/

/-- The changes of a step that get through a filter. -/
def batch (filter : ChangeFilter) (files : FileSystem) (step : WatchStep) : List String :=
  step.changes.filter (filter.accepts files.workingDirectory)

/-- How the events of a watch are over. -/
inductive Ending where
  | exhausted
  | interrupted
  deriving DecidableEq, Repr

/-- What can be raised while something is watched. -/
inductive Raised where
  | file (error : FileError)
  | interruption
  deriving DecidableEq, Repr

/-- A generation as a call, which raises what keeps it from writing the declaration file. Mirrors `run`. -/
def call (watch : Watch) (state : WatchState) : WatchState × Option Raised :=
  let result := watch.generation state.system state.console
  match result.written with
  | .ok system => (⟨system, result.console⟩, none)
  | .error unfinished => (⟨unfinished.left, result.console⟩, some (.file unfinished.toFileError))

/-- What is told of an error with files instead of raising it.
Mirrors the handler in `watch_and_regenerate`. -/
def caught : WatchState × Option Raised → WatchState × Option Raised
  | (state, some (.file error)) => (⟨state.system, state.console.complain (complaint error.message)⟩, none)
  | (state, raised) => (state, raised)

/-- The loop over the batches of changes that get through one filter, which is made before the first of them.
What a batch raises and is not caught ends it.
Mirrors the loop of `watch_and_regenerate`. -/
def loop (watch : Watch) (filter : ChangeFilter) (ending : Ending) (state : WatchState) :
    List WatchStep → WatchState × Option Raised
  | [] =>
    match ending with
    | .exhausted => (state, none)
    | .interrupted => (state, some .interruption)
  | step :: steps =>
    let system := step.edit state.system
    match batch filter system step with
    | [] => loop watch filter ending ⟨system, state.console⟩ steps
    | changes =>
      match caught (watch.call ⟨system, (announcement changes).foldl Console.say state.console⟩) with
      | (state, none) => loop watch filter ending state steps
      | (state, raised) => (state, raised)

/-- How the program ends after the loop: an interruption is an end without a complaint.
Mirrors the handlers of `main`. -/
def exit : WatchState × Option Raised → Nat × WatchState
  | (state, none) => (0, state)
  | (state, some .interruption) => (0, state)
  | (state, some (.file error)) => (1, ⟨state.system, state.console.complain (complaint error.message)⟩)

end Watch

end TypeBridge.CommandLine
