import TypeBridge.Text.Blank

/-!
# Paths

A path is given by its root and the names after it. Names that are empty or a single dot mean nothing
and are dropped; two dots are kept, since what they mean depends on the files.
-/
namespace TypeBridge

/-- A path. -/
structure Path where
  /-- What the path begins with when it is absolute: one slash, or two. -/
  root : String := ""
  /-- The names of the path, none of them empty, a single dot, or with a slash. -/
  parts : List String := []
  deriving DecidableEq, Repr

namespace Path

/-- Whether a name counts in a path. -/
def counts (name : List Char) : Bool := name != [] && name != ['.']

/-- The root of the path with the given text. Three slashes mean no more than one. -/
def rootOf : List Char → String
  | '/' :: '/' :: '/' :: _ => "/"
  | '/' :: '/' :: _ => "//"
  | '/' :: _ => "/"
  | _ => ""

/-- The path with the given text. -/
def ofText (text : String) : Path :=
  { root := rootOf text.toList
    parts := ((Text.splitOn (· == '/') text.toList).filter counts).map .ofList }

/-- The text of a path; that of an empty one is a dot. -/
def text (path : Path) : String :=
  if path.root.isEmpty && path.parts.isEmpty then "."
  else path.root ++ "/".intercalate path.parts

/-- Whether a path does not depend on the working directory. -/
def isAbsolute (path : Path) : Bool := !path.root.isEmpty

/-- The path without its last name. -/
def parent (path : Path) : Path := { path with parts := path.parts.dropLast }

/-- A path with more names after it. -/
def append (path : Path) (names : List String) : Path := { path with parts := path.parts ++ names }

/-- The names of some names after each pair of dots has taken away the name before it. -/
def normalize (names : List String) : List String :=
  names.foldl (fun before name => if name = ".." then before.dropLast else before ++ [name]) []

/-- The names of a path from the root on, when a path that is not absolute begins at the working
directory. -/
def resolve (workingDirectory : List String) (path : Path) : List String :=
  normalize (if path.isAbsolute then path.parts else workingDirectory ++ path.parts)

/-- Whether a path comes before another one, name by name. -/
def namesBefore : List String → List String → Bool
  | [], _ => true
  | _ :: _, [] => false
  | a :: as, b :: bs => if a = b then namesBefore as bs else a < b

end Path

end TypeBridge
