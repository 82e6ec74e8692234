import TypeBridge.Files.Path
import TypeBridge.Files.Tree
import TypeBridge.Text.Quoted

/-!
# File systems

A tree of files with a working directory, and what a program does with it: reading and writing files and
making directories. Each of these may fail, for a reason that has a number and a text.

Limitations: there are no rights and no links, and there is always room for what is written.
-/
namespace TypeBridge

/-- Why something cannot be done with files. -/
inductive FileFault where
  | missing
  | alreadyThere
  | notDirectory
  | isDirectory
  deriving DecidableEq, Repr

/-- The number of a reason. -/
def FileFault.number : FileFault → Nat
  | .missing => 2
  | .alreadyThere => 17
  | .notDirectory => 20
  | .isDirectory => 21

/-- The text of a reason. -/
def FileFault.text : FileFault → String
  | .missing => "No such file or directory"
  | .alreadyThere => "File exists"
  | .notDirectory => "Not a directory"
  | .isDirectory => "Is a directory"

/-- Something that cannot be done with the files at a path. -/
structure FileError where
  fault : FileFault
  path : Path
  deriving DecidableEq, Repr

/-- What is said about an error. -/
def FileError.message (error : FileError) : String :=
  "[Errno " ++ toString error.fault.number ++ "] " ++ error.fault.text ++ ": " ++
    Text.quoted error.path.text

/-- A tree of files with a working directory. -/
structure FileSystem where
  tree : FileTree
  workingDirectory : List String := []
  deriving Repr, BEq

/-- Something that is begun and cannot be finished, since something else cannot be done with the files at
a path. -/
structure Unfinished extends FileError where
  /-- The files as they have been left. -/
  left : FileSystem

namespace FileSystem

variable (system : FileSystem)

/-! ## Places -/

/-- The place that some names lead to from another place. All but the last name must lead to
directories. -/
def placeFrom (here : List String) : List String → Except FileFault (List String)
  | [] => .ok here
  | name :: names =>
    match system.tree.get? here with
    | some (.directory _) => placeFrom (if name = ".." then here.dropLast else here ++ [name]) names
    | some (.file _) => .error .notDirectory
    | none => .error .missing

/-- The place that a path leads to. -/
def place (path : Path) : Except FileFault (List String) :=
  system.placeFrom (if path.isAbsolute then [] else system.workingDirectory) path.parts

/-- The tree at a path. -/
def tree? (path : Path) : Except FileFault FileTree :=
  match system.place path with
  | .error fault => .error fault
  | .ok place =>
    match system.tree.get? place with
    | some tree => .ok tree
    | none => .error .missing

/-- Whether there is a directory at a path. -/
def isDirectory (path : Path) : Bool :=
  match system.tree? path with
  | .ok tree => tree.isDirectory
  | .error _ => false

/-- The file at a path, if there is one. -/
def file? (path : Path) : Option (List UInt8) :=
  match system.tree? path with
  | .ok (.file bytes) => some bytes
  | _ => none

/-! ## Actions -/

/-- Reads a file. -/
def read (path : Path) : Except FileFault (List UInt8) :=
  match system.tree? path with
  | .ok (.file bytes) => .ok bytes
  | .ok (.directory _) => .error .isDirectory
  | .error fault => .error fault

/-- Writes a file, which may be there already. -/
def write (path : Path) (bytes : List UInt8) : Except FileError FileSystem :=
  match system.place path with
  | .error fault => .error ⟨fault, path⟩
  | .ok place =>
    match system.tree.get? place with
    | some (.directory _) => .error ⟨.isDirectory, path⟩
    | _ => .ok { system with tree := system.tree.put place (.file bytes) }

/-- Makes a directory where nothing is. -/
def makeDirectory (path : Path) : Except FileFault FileSystem :=
  match system.place path with
  | .error fault => .error fault
  | .ok place =>
    match system.tree.get? place with
    | some _ => .error .alreadyThere
    | none => .ok { system with tree := system.tree.put place (.directory []) }

/-- Makes a directory, unless there is one. -/
def ensureDirectory (path : Path) : Except FileError FileSystem :=
  match system.makeDirectory path with
  | .ok system => .ok system
  | .error fault =>
    if fault ≠ .missing ∧ system.isDirectory path then .ok system else .error ⟨fault, path⟩

/-- A result; if it is an error, the files are left as they are. -/
def leaving {α : Type} (result : Except FileError α) : Except Unfinished α :=
  match result with
  | .error error => .error { error with left := system }
  | .ok value => .ok value

/-- Makes the directory of the first `count` names of a path, and before it those that it needs to be
in. Directories that have been made stay when others cannot be made. -/
def ensureDirectoriesTo (path : Path) : Nat → Except Unfinished FileSystem
  | 0 => system.leaving (system.ensureDirectory { path with parts := [] })
  | count + 1 =>
    let here := { path with parts := path.parts.take (count + 1) }
    match system.ensureDirectory here with
    | .error ⟨.missing, _⟩ =>
      match ensureDirectoriesTo path count with
      | .error unfinished => .error unfinished
      | .ok system => system.leaving (system.ensureDirectory here)
    | result => system.leaving result

/-- Makes a directory and all that it needs to be in, unless there is one. -/
def ensureDirectories (path : Path) : Except Unfinished FileSystem :=
  system.ensureDirectoriesTo path path.parts.length

end FileSystem

end TypeBridge
