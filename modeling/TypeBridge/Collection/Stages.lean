import TypeBridge.Collection.Workers
import TypeBridge.Generation

/-!
# Collecting in stages

A source file is read, decoded and parsed, and at each of these stages something else may be raised. All of it is
turned into faults of the source, and only these are caught. What is got from the files, by one worker or by several,
is then gone through in the order of the files: a file adds its declarations to those of the files before it, or a
warning.
-/
namespace TypeBridge.Collection

/-! ## One file -/

/-- What may be raised on the way from a file to its declarations. -/
inductive Raised where
  /-- By reading the file. -/
  | file (fault : FileFault)
  /-- By decoding its bytes. -/
  | decoding (fault : Text.Utf8Fault)
  /-- By parsing its text, or in place of one of the others. -/
  | source (fault : SourceFault)
  deriving DecidableEq, Repr

section Attempt

variable [FaultFinder] (options : Options) (system : FileSystem) (path : Path)

/-- Reads and decodes a source file. -/
def readText : Except Raised String :=
  match system.read path with
  | .error fault => .error (.file fault)
  | .ok bytes =>
    match Text.decodeUtf8 (Text.dropByteOrderMark bytes) with
    | .error fault => .error (.decoding fault)
    | .ok text => .ok (.ofList text)

/-- Parses the text of a source. Mirrors `parse_source_text`. -/
def parseText (text : String) : Except Raised SourceUnit :=
  match Source.unit? options text with
  | some unit => .ok unit
  | none => .error (.source (.grammar (FaultFinder.place? text)))

/-- Reads and parses a source file; what reading and decoding raise becomes a fault of the source.
Mirrors `parse_source_file`. -/
def parseFile : Except Raised SourceUnit :=
  match readText system path with
  | .error (.decoding fault) => .error (.source (.encoding fault))
  | .error (.file fault) => .error (.source (.unreadable fault))
  | .error raised => .error raised
  | .ok text => parseText options text

/-- Reads and parses a source file, and catches faults of the source, but nothing else.
Mirrors `_parse_or_failure`. -/
def attempt : Except Raised (Except SourceFault SourceUnit) :=
  match parseFile options system path with
  | .ok unit => .ok (.ok unit)
  | .error (.source fault) => .ok (.error fault)
  | .error raised => .error raised

end Attempt

/-! ## One file after another -/

/-- What is collected from some files. Mirrors `CollectionResult`. -/
structure Collected where
  declarations : DeclarationSet := {}
  parsed : List Path := []
  failures : List (Path × String) := []
  console : Console

/-- What is collected when one more file is done. Mirrors the loop of `collect_declarations`. -/
def Collected.add (collected : Collected) (outcome : Outcome) : Collected :=
  match outcome.2 with
  | .error fault =>
    let message := fault.message (some outcome.1)
    { collected with
      failures := collected.failures ++ [(outcome.1, message)]
      console := collected.console.complain (Generation.mark ++ "warning: skipped " ++ message) }
  | .ok unit =>
    { collected with
      declarations := collected.declarations.merge unit
      parsed := collected.parsed ++ [outcome.1] }

/-- What is collected from files one after another. -/
def Collected.ofOutcomes (console : Console) (outcomes : List Outcome) : Collected :=
  outcomes.foldl add { console }

/-! ## Several workers -/

variable [FaultFinder] {options : Options} {system : FileSystem} {workers : Nat} {paths : List Path}

/-- Collects from some files, which the workers share when there are several of both. If something is raised that is
not caught, nothing is collected.
Mirrors `collect_declarations`. -/
def collect (schedule : Schedule (attempt options system) workers paths) (console : Console) :
    Except Raised Collected :=
  let attempts :=
    if 1 < workers ∧ 1 < paths.length then schedule.results else paths.map (attempt options system)
  match attempts.mapM id with
  | .error raised => .error raised
  | .ok results => .ok (.ofOutcomes console (paths.zip results))

end TypeBridge.Collection
