/-!
# Type expressions

The types that C# source code can name, by their form.
-/
namespace TypeBridge

/-- A name with the names that qualify it, the outermost first.
Mirrors the names in `NamedType` and `GenericType`. -/
structure TypeName where
  qualifier : List String
  simple : String
  deriving DecidableEq, Repr

namespace TypeName

/-- All parts of a name. -/
def segments (name : TypeName) : List String := name.qualifier ++ [name.simple]

/-- The outermost part of a name. -/
def first (name : TypeName) : String := name.qualifier.headD name.simple

/-- The qualifier as it is written. Mirrors `qualifier`. -/
def qualifierText (name : TypeName) : String := ".".intercalate name.qualifier

/-- A name as it is written. -/
def text (name : TypeName) : String := ".".intercalate name.segments

/-- The name with these parts, of which there is at least the first. -/
def ofSegments (first : String) (rest : List String) : TypeName :=
  ⟨(first :: rest).dropLast, (first :: rest).getLast (by simp)⟩

theorem segments_ofSegments (first : String) (rest : List String) :
    (ofSegments first rest).segments = first :: rest := by
  simp only [segments, ofSegments]
  exact List.dropLast_concat_getLast _

end TypeName

/-- A type expression: a name, a generic type applied to arguments, an array whose rank is one more
than the number of commas between its brackets, an optional type, or a tuple whose elements may be
labelled.
Mirrors `TypeNode`. -/
inductive TypeExpr where
  | named (name : TypeName)
  | generic (name : TypeName) (arguments : List TypeExpr)
  | array (element : TypeExpr) (rank : Nat)
  | nullable (inner : TypeExpr)
  | tuple (elements : List (Option String × TypeExpr))
  deriving Repr

end TypeBridge
