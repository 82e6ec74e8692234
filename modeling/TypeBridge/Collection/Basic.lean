import TypeBridge.Collection.Discovery
import TypeBridge.Collection.Workers
import TypeBridge.Declaration.Set
import TypeBridge.Source.Unit
import TypeBridge.Text.Utf8

/-!
# Collection

The declarations of several source files. A file that cannot be read or that breaks a rule of the language
is left out, and does not affect what is collected from others.

* `outcomes_eq_map`: how many workers there are does not matter.
* `failures_append`, `parsed_append`: each file succeeds or fails on its own.
-/
namespace TypeBridge.Collection

/-! ## Places of faults -/

/-- A place in a text. Lines, and the bytes of a line, are counted from zero. -/
structure TextPlace where
  line : Nat
  column : Nat
  deriving DecidableEq, Repr

/-- A place as it is told to somebody who counts from one. -/
def TextPlace.text (place : TextPlace) : String :=
  toString (place.line + 1) ++ ":" ++ toString (place.column + 1)

/-- Where the first fault is found in a text that breaks a rule of the language, if it is found anywhere.
This follows from how the parser of the sources mends faults, which is no part of this development, so that
all that is said of collecting is said for any choice of places. Mirrors `find_first_error`. -/
class FaultFinder where
  place? : String → Option TextPlace

/-- Finds no place at all. -/
instance (priority := low) : FaultFinder := ⟨fun _ => none⟩

/-! ## One file -/

/-- Why no declarations can be got from a file. -/
inductive SourceFault where
  | unreadable (fault : FileFault)
  | encoding (fault : Text.Utf8Fault)
  | grammar (place : Option TextPlace)
  deriving DecidableEq, Repr

/-- What is wrong with a source. Mirrors the messages given to `SourceParseError`. -/
def SourceFault.reason : SourceFault → String
  | .unreadable fault => "could not be read (" ++ fault.text ++ ")"
  | .encoding fault => "not valid UTF-8 (" ++ fault.reason.message ++ ")"
  | .grammar none => "syntax error"
  | .grammar (some place) => "syntax error at " ++ place.text

/-- What is wrong with the source at a path; there may be no path. Mirrors `SourceParseError`. -/
def SourceFault.message (path : Option Path) (fault : SourceFault) : String :=
  (path.map Path.text).getD "<source>" ++ ": " ++ fault.reason

section Reading

variable [FaultFinder]

/-- The declarations of a source. Mirrors `parse_source_text`. -/
def unitOfText (options : Options) (text : String) : Except SourceFault SourceUnit :=
  match Source.unit? options text with
  | some unit => .ok unit
  | none => .error (.grammar (FaultFinder.place? text))

/-- The declarations of the bytes of a source. -/
def unitOfBytes (options : Options) (bytes : List UInt8) : Except SourceFault SourceUnit :=
  match Text.decodeUtf8 (Text.dropByteOrderMark bytes) with
  | .error fault => .error (.encoding fault)
  | .ok text => unitOfText options (.ofList text)

/-- The declarations of a source file. Mirrors `parse_source_file`. -/
def unitOfFile (options : Options) (system : FileSystem) (path : Path) : Except SourceFault SourceUnit :=
  match system.read path with
  | .error fault => .error (.unreadable fault)
  | .ok bytes => unitOfBytes options bytes

/-! ## Several files -/

/-- A file with what is got from it. -/
abbrev Outcome := Path × Except SourceFault SourceUnit

/-- What is got from a file, with its path. Mirrors `_parse_or_failure`. -/
def outcome (options : Options) (system : FileSystem) (path : Path) : Outcome :=
  (path, unitOfFile options system path)

/-- What is got from each of some files, by one worker or by several that share the files.
Mirrors the `outcomes` of `collect_declarations`. -/
def outcomes (options : Options) (system : FileSystem) (workers : Nat) (paths : List Path) :
    List Outcome :=
  if workers > 1 then Workload.share (outcome options system) workers paths
  else paths.map (outcome options system)

theorem outcomes_eq_map (options : Options) (system : FileSystem) (workers : Nat) (paths : List Path) :
    outcomes options system workers paths = paths.map (outcome options system) := by
  unfold outcomes
  split
  · exact Workload.share_eq_map ..
  · rfl

end Reading

/-- The declarations of a file, if there are any to get. -/
def unitOf? (outcome : Outcome) : Option SourceUnit :=
  match outcome.2 with
  | .ok unit => some unit
  | .error _ => none

/-- What is wrong with a file, if something is. -/
def faultOf? (outcome : Outcome) : Option (Path × SourceFault) :=
  match outcome.2 with
  | .ok _ => none
  | .error fault => some (outcome.1, fault)

/-- The declarations of all files from which some are got. -/
def declarations (outcomes : List Outcome) : DeclarationSet := .ofUnits (outcomes.filterMap unitOf?)

/-- The files from which declarations are got. -/
def parsed (outcomes : List Outcome) : List Path :=
  (outcomes.filter fun outcome => (unitOf? outcome).isSome).map (·.1)

/-- The files from which none are got, and why. -/
def failures (outcomes : List Outcome) : List (Path × SourceFault) := outcomes.filterMap faultOf?

theorem failures_append (first second : List Outcome) :
    failures (first ++ second) = failures first ++ failures second := by
  simp [failures]

theorem parsed_append (first second : List Outcome) :
    parsed (first ++ second) = parsed first ++ parsed second := by
  simp [parsed]

end TypeBridge.Collection
