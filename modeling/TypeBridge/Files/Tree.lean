import TypeBridge.Table

/-!
# Trees of files

A tree of files is a file or a directory with named trees in it.

* `get?_put`: what is put at a place is found there.
-/
namespace TypeBridge

/-- A file with its bytes, or a directory with its entries. -/
inductive FileTree where
  | file (bytes : List UInt8)
  | directory (entries : List (String × FileTree))
  deriving Repr, BEq

namespace FileTree

/-- The tree at a place, if there is one. -/
def get? : FileTree → List String → Option FileTree
  | tree, [] => some tree
  | .file _, _ :: _ => none
  | .directory entries, name :: names => (Table.get? entries name).bind (get? · names)

/-- The entries of a directory. -/
def entries : FileTree → List (String × FileTree)
  | .file _ => []
  | .directory entries => entries

/-- Puts a tree at a place. Directories are made on the way to it. -/
def put (tree : FileTree) (names : List String) (new : FileTree) : FileTree :=
  match names with
  | [] => new
  | name :: names =>
    let inner := (Table.get? tree.entries name).getD (.directory [])
    .directory (Table.insert name (put inner names new) tree.entries)

/-- Takes away what is at a place. -/
def remove (tree : FileTree) : List String → FileTree
  | [] => tree
  | [name] => .directory (tree.entries.filter (·.1 != name))
  | name :: names =>
    match Table.get? tree.entries name with
    | none => tree
    | some inner => .directory (Table.insert name (remove inner names) tree.entries)

mutual
/-- The files of a tree with their places, for a tree that is at the given place. -/
def filesAt (place : List String) : FileTree → List (List String × List UInt8)
  | .file bytes => [(place, bytes)]
  | .directory entries => filesIn place entries

/-- The files of the entries of a directory with their places. -/
def filesIn (place : List String) : List (String × FileTree) → List (List String × List UInt8)
  | [] => []
  | (name, tree) :: entries => filesAt (place ++ [name]) tree ++ filesIn place entries
end

/-- The files of a tree with their places. -/
def files (tree : FileTree) : List (List String × List UInt8) := filesAt [] tree

/-- Whether a tree is a directory. -/
def isDirectory : FileTree → Bool
  | .file _ => false
  | .directory _ => true

theorem get?_put (tree : FileTree) (names : List String) (new : FileTree) :
    (tree.put names new).get? names = some new := by
  induction names generalizing tree with
  | nil => simp [put, get?]
  | cons name names ih => simp [put, get?, Table.get?_insert, ih]

end FileTree

end TypeBridge
