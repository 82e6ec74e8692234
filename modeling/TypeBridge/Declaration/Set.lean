import TypeBridge.Declaration.Basic
import TypeBridge.Table
import TypeBridge.Text.Blank
import TypeBridge.Translation.Scope

/-!
# Sets of declarations

The declarations of several sources, grouped by namespace. The groups are in the order in which their
namespaces were first met, the enumerations of a source before its types, and the declarations of a group
in the order in which they came.

* `list_extend`: what a list of a table of lists is after one of them is extended.
-/
namespace TypeBridge

/-- The declarations of one namespace. Mirrors `NamespaceGroup`. -/
structure NamespaceGroup where
  name : String
  enumerations : List Enumeration := []
  types : List TypeDeclaration := []
  deriving Repr, BEq

/-- The names of the namespaces around a group and of its own one, the outermost first.
Mirrors `segments`. -/
def NamespaceGroup.segments (group : NamespaceGroup) : List String :=
  (Text.splitOn (· == '.') group.name.toList).map .ofList

namespace Table

variable {α : Type}

/-- The list of a name in a table of lists, which is empty when there is none. -/
def list (table : Table (List α)) (name : String) : List α := (table.get? name).getD []

/-- A table of lists with one more member at the end of the list of a name. -/
def extend (name : String) (member : α) (table : Table (List α)) : Table (List α) :=
  table.insert name (table.list name ++ [member])

theorem list_extend (name other : String) (member : α) (table : Table (List α)) :
    list (table.extend name member) other =
      if other = name then table.list name ++ [member] else table.list other := by
  unfold list extend
  rw [get?_insert]
  split <;> rfl

end Table

/-- Declarations grouped by namespace. Mirrors `DeclarationSet`. -/
structure DeclarationSet where
  /-- The namespaces, in the order in which they were first met. -/
  order : List String := []
  /-- The enumerations of each namespace that has some. -/
  enumerations : Table (List Enumeration) := []
  /-- The types of each namespace that has some. -/
  types : Table (List TypeDeclaration) := []
  deriving Repr, BEq

namespace DeclarationSet

/-- The names with one more at the end, unless it is among them. -/
def addName (order : List String) (name : String) : List String :=
  if name ∈ order then order else order ++ [name]

/-- Adds an enumeration to its namespace. Mirrors the first loop of `merge`. -/
def addEnumeration (set : DeclarationSet) (enumeration : Enumeration) : DeclarationSet :=
  { set with
    order := addName set.order enumeration.namespaceName
    enumerations := set.enumerations.extend enumeration.namespaceName enumeration }

/-- Adds a type to its namespace. Mirrors the second loop of `merge`. -/
def addType (set : DeclarationSet) (type : TypeDeclaration) : DeclarationSet :=
  { set with
    order := addName set.order type.namespaceName
    types := set.types.extend type.namespaceName type }

/-- Adds the declarations of a source. Mirrors `merge`. -/
def merge (set : DeclarationSet) (unit : SourceUnit) : DeclarationSet :=
  unit.types.foldl addType (unit.enumerations.foldl addEnumeration set)

/-- The declarations of some sources. Mirrors `from_units`. -/
def ofUnits (units : List SourceUnit) : DeclarationSet := units.foldl merge {}

/-- Whether there is no declaration. Mirrors `is_empty`. -/
def isEmpty (set : DeclarationSet) : Bool := set.order.isEmpty

/-- The groups of declarations, in the order of their namespaces. Mirrors `namespace_groups`. -/
def groups (set : DeclarationSet) : List NamespaceGroup :=
  set.order.map fun name =>
    { name := name, enumerations := set.enumerations.list name, types := set.types.list name }

/-- What is known of the declarations for the resolution of names. Mirrors `type_registry`. -/
def registry (set : DeclarationSet) : Registry :=
  { enums := set.enumerations.flatMap fun entry => entry.2.map (·.name)
    nested := set.types.flatMap fun entry => entry.2.flatMap TypeDeclaration.ownerships }

end DeclarationSet

end TypeBridge
