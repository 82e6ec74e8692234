import TypeBridge.Files.System
import TypeBridge.Options

/-!
# Discovery

Which files below a directory are sources, and in which order they are taken: by the names of their paths,
one after the other. Files in directories that are left out do not count; only directories below the root
matter for that.

* `mem_sourceNames`: exactly the source files of a tree are listed.
-/
namespace TypeBridge.Collection

/-- What the names of source files end with. -/
def sourceSuffix : String := ".cs"

/-- Whether the last of some names is that of a source. -/
def isSourceName (names : List String) : Bool :=
  match names.getLast? with
  | some name => Text.endsWith sourceSuffix.toList name.toList
  | none => false

/-- Whether one of the directories on the way to a file is left out. -/
def isExcluded (excluded : List String) (names : List String) : Bool :=
  names.dropLast.any excluded.contains

/-- Whether the file at a place below the root is a source that counts. -/
def isSource (excluded : List String) (names : List String) : Bool :=
  isSourceName names && !isExcluded excluded names

/-- The places of the sources below a directory, in order. -/
def sourceNames (excluded : List String) (tree : FileTree) : List (List String) :=
  ((tree.files.map (·.1)).filter (isSource excluded)).mergeSort Path.namesBefore

/-- The paths of the sources below a root, in order. There are none if the root is no directory.
Mirrors `discover_source_files`. -/
def sourceFiles (options : Options) (system : FileSystem) (root : Path) : List Path :=
  match system.tree? root with
  | .ok (.directory entries) =>
    (sourceNames options.excludedDirectories (.directory entries)).map root.append
  | _ => []

theorem mem_sourceNames (excluded : List String) (tree : FileTree) (names : List String) :
    names ∈ sourceNames excluded tree ↔
      names ∈ tree.files.map (·.1) ∧ isSource excluded names = true := by
  simp [sourceNames]

end TypeBridge.Collection
