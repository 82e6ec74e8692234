import TypeBridge.Collection.Basic
import TypeBridge.Console
import TypeBridge.Output.File

/-!
# Generation

Writing the declaration file for the sources below a directory, and telling what is done.
-/
namespace TypeBridge

namespace Generation

/-- What every message begins with. Mirrors `LOG_PREFIX`. -/
def mark : String := "[cststypegen] "

/-- The line that warns of a file that is left out. -/
def warning (path : Path) (fault : Collection.SourceFault) : String :=
  mark ++ "warning: skipped " ++ fault.message (some path)

/-- The lines that warn of the files that are left out. -/
def warnings (outcomes : List Collection.Outcome) : List String :=
  (Collection.failures outcomes).map fun (path, fault) => warning path fault

variable [Collection.FaultFinder]

/-- What is got from the sources below a directory. -/
def outcomes (options : Options) (system : FileSystem) (workers : Nat) (input : Path) :
    List Collection.Outcome :=
  Collection.outcomes options system workers (Collection.sourceFiles options system input)

/-- The text of the declaration file for what is got from some sources. -/
def text (options : Options) (outcomes : List Collection.Outcome) : String :=
  Output.render options Output.usualSections (Collection.declarations outcomes)

/-- Writes a text to a file, whose directory is made if there is none. -/
def writeText (system : FileSystem) (output : Path) (text : String) :
    Except Unfinished FileSystem :=
  match system.ensureDirectories output.parent with
  | .error unfinished => .error unfinished
  | .ok system => system.leaving (system.write output (Text.encodeUtf8 text.toList))

/-- What has come of a generation. Mirrors `GenerationResult`. -/
structure Result where
  console : Console
  /-- The files from which something or nothing was got. -/
  outcomes : List Collection.Outcome
  /-- The files afterwards; if the declaration file could not be written, those that have been left. -/
  written : Except Unfinished FileSystem

/-- Writes the declaration file for the sources below a directory. Mirrors `generate`. -/
def run (options : Options) (system : FileSystem) (workers : Nat) (input output : Path)
    (console : Console) : Result :=
  let outcomes := outcomes options system workers input
  let found := console.say (mark ++ "Found " ++ toString outcomes.length ++ " C# file(s) under " ++ input.text)
  let warned := found.complainAll (warnings outcomes)
  match writeText system output (text options outcomes) with
  | .error unfinished => ⟨warned, outcomes, .error unfinished⟩
  | .ok system => ⟨warned.say (mark ++ "OK -> " ++ output.text), outcomes, .ok system⟩

/-- The line that says how many files were left out, if some were. -/
def summary (result : Result) : List String :=
  let count := (Collection.failures result.outcomes).length
  match result.written with
  | .ok _ => if count = 0 then [] else [mark ++ toString count ++ " file(s) skipped"]
  | .error _ => []

/-- Writes the declaration file, and tells how many files were left out. Mirrors `run`. -/
def runAndSummarize (options : Options) (system : FileSystem) (workers : Nat) (input output : Path)
    (console : Console) : Result :=
  let result := run options system workers input output console
  { result with console := result.console.complainAll (summary result) }

end Generation

end TypeBridge
