/-!
# Declarations

Types and enumerations as they are declared in sources.
-/
namespace TypeBridge

/-- An attribute that is applied to a member. Mirrors `AttributeUsage`. -/
structure Attribute where
  name : String
  arguments : List String := []
  deriving DecidableEq, Repr

/-- A member of a type that holds a value. Mirrors `MemberDeclaration`. -/
structure Member where
  name : String
  type : String
  /-- The comments before the member. -/
  comments : List String := []
  attributes : List Attribute := []
  deriving DecidableEq, Repr

/-- The first of the attributes of a member that has one of the given names. Mirrors `find_attribute`. -/
def Member.attribute? (member : Member) (names : List String) : Option Attribute :=
  member.attributes.find? fun applied => names.contains applied.name

/-- The kinds of types that have members. Mirrors `ClassKind`. -/
inductive TypeKind where
  | classType
  | structType
  | recordType
  | interfaceType
  deriving DecidableEq, Repr

/-- A type with members, and the types declared inside of it. Mirrors `ClassDeclaration`. -/
structure TypeDeclaration where
  name : String
  namespaceName : String
  kind : TypeKind := .classType
  parameters : List String := []
  members : List Member := []
  /-- The comments before the declaration. -/
  comments : List String := []
  nested : List TypeDeclaration := []
  deriving Repr, BEq, Inhabited

/-- An enumeration. Mirrors `EnumDeclaration`. -/
structure Enumeration where
  name : String
  namespaceName : String
  members : List String := []
  /-- The comments before the declaration. -/
  comments : List String := []
  deriving DecidableEq, Repr

/-- The declarations of one source, in order. Mirrors `SourceUnit`. -/
structure SourceUnit where
  types : List TypeDeclaration := []
  enumerations : List Enumeration := []
  deriving Repr, BEq

namespace TypeDeclaration

mutual
/-- The types that are declared directly in a type, and those in them, each with the type that it is
declared in; an outer type goes before those inside of it.
Mirrors `iter_nested_declarations`. -/
def ownerships : TypeDeclaration → List (String × String)
  | { name := owner, nested := inner, .. } => ownershipsIn owner inner

/-- The types in a list that belongs to an owner, and those in them. -/
def ownershipsIn (owner : String) : List TypeDeclaration → List (String × String)
  | [] => []
  | type :: types => (owner, type.name) :: ownerships type ++ ownershipsIn owner types
end

end TypeDeclaration

end TypeBridge
