import TypeBridge.CommandLine.Arguments
import TypeBridge.CommandLine.Settings
import TypeBridge.CommandLine.Watch
import TypeBridge.TypeMap

/-!
# The program

What the program does for given arguments, environment and files. What is watched comes as a list of steps.
-/
namespace TypeBridge.CommandLine

/-- What has come of a run of the program. -/
structure Outcome where
  exit : Nat
  console : Console
  system : FileSystem
  /-- The files before each step while a directory was watched. -/
  frames : List FileSystem := []

/-- How far the program has come before it watches anything: it has ended, or goes on to watch. -/
inductive Stage where
  | ended (exit : Nat) (state : WatchState)
  | watching (watch : Watch) (state : WatchState)

/-! ## Usual paths -/

/-- The directory whose sources are read when none is named. Mirrors `DEFAULT_INPUT_DIR`. -/
def usualInput : String := ".."

/-- The file that is written when none is named. Mirrors `DEFAULT_OUTPUT_PATH`. -/
def usualOutput : String := "./typedefs.d.ts"

/-- How the paths can be given. Mirrors `USAGE_GUIDANCE`. -/
def guidance : List String := [
  "usage: cststypegen [input_dir] [output_file]",
  "  input_dir    C# source directory (env CsTsTypeGen_SourceDirectory, default " ++ usualInput ++ ")",
  "  output_file  declaration file to write (env CsTsTypeGen_DefinitionsPath, default " ++ usualOutput ++
    ")"]

/-- The first of two texts that is there and not empty. -/
def given (first second : Option String) : Option String :=
  (first.filter (!·.isEmpty)) <|> (second.filter (!·.isEmpty))

/-- The paths that a run is about. -/
structure Paths where
  input : Path
  output : Path
  typeMap : Option Path
  deriving DecidableEq, Repr

/-- The paths that arguments and settings give; arguments go before settings. -/
def pathsFor (arguments : Arguments) (settings : Settings) : Paths :=
  { input := .ofText ((given arguments.input settings.sourceDirectory).getD usualInput)
    output := .ofText ((given arguments.output settings.definitionsPath).getD usualOutput)
    typeMap := (given arguments.typeMap settings.typeMapPath).map .ofText }

/-! ## Runs -/

/-- The line that tells that nothing is generated. -/
def disabledNotice : String :=
  Generation.mark ++ "Definition generation disabled by CsTsTypeGen_GenerateDefinitions; skipping."

/-- An end with a complaint. -/
def failure (system : FileSystem) (console : Console) (message : String) : Stage :=
  .ended 1 ⟨system, console.complain (complaint message)⟩

/-- The options for a type map, if one is named. Mirrors `build_config`. -/
def optionsFor (system : FileSystem) : Option Path → Except String Options
  | none => .ok {}
  | some path =>
    match TypeMap.ofFile (system.file? path) with
    | .ok map => .ok map.options
    | .error fault => .error (fault.message path.text)

variable [Collection.FaultFinder]

/-- Generates once, and goes on to watch if that is asked for.
Mirrors the calls of `run` and `watch_and_regenerate` in `main`. -/
def generate (watch : Watch) (isWatched : Bool) (system : FileSystem) (console : Console) : Stage :=
  let result := watch.generation system console
  match result.written with
  | .error unfinished => failure unfinished.left result.console unfinished.message
  | .ok system =>
    if isWatched then
      .watching watch ⟨system, result.console.say (Generation.mark ++ "Watching: " ++ watch.input.text)⟩
    else .ended 0 ⟨system, result.console⟩

/-- Starts for arguments and settings that have been read. Mirrors `main` after the settings. -/
def startWith (arguments : Arguments) (settings : Settings) (system : FileSystem) (console : Console) :
    Stage :=
  let paths := pathsFor arguments settings
  if !settings.isEnabled then .ended 0 ⟨system, console.say disabledNotice⟩
  else if !system.isDirectory paths.input then
    let line := complaint ("input directory not found: " ++ paths.input.text)
    .ended 1 ⟨system, console.complainAll (line :: guidance)⟩
  else if arguments.jobs < 1 then failure system console "--jobs must be at least 1"
  else
    match optionsFor system paths.typeMap with
    | .error message => failure system console message
    | .ok options =>
      let watch :=
        { options, workers := arguments.jobs.toNat, input := paths.input, output := paths.output }
      generate watch arguments.watch system console

/-- Starts the program. It breaks off when the settings file is not UTF-8. -/
def start (arguments : List String) (environment : List (String × String)) (system : FileSystem) :
    Except Text.Utf8Fault Stage :=
  match request arguments with
  | .error fault => .ok (.ended 2 ⟨system, { complaints := fault.report }⟩)
  | .ok .help => .ok (.ended 0 ⟨system, { answers := help }⟩)
  | .ok (.run arguments) =>
    match Settings.content system with
    | .error fault => .error fault
    | .ok content =>
      let console := ({} : Console).complainAll (content.faults.map Settings.warning)
      .ok (startWith arguments (Settings.ofContent environment content) system console)

/-- What has come of a run once the steps while it watches are over. -/
def Stage.finish (stage : Stage) (steps : List WatchStep) : Outcome :=
  match stage with
  | .ended exit state => { exit := exit, console := state.console, system := state.system }
  | .watching watch state =>
    let (before, last) := watch.run state steps
    { exit := 0, console := last.console, system := last.system, frames := before.map (·.system) }

/-- A run of the program with the steps while it watches. Mirrors `main`. -/
def run (arguments : List String) (environment : List (String × String)) (steps : List WatchStep)
    (system : FileSystem) : Except Text.Utf8Fault Outcome :=
  match start arguments environment system with
  | .error fault => .error fault
  | .ok stage => .ok (stage.finish steps)

end TypeBridge.CommandLine
