/-!
# Scopes and registries

A name is resolved at a place, its *scope*, against what is known of all declarations, the *registry*.
-/
namespace TypeBridge

/-- The place where a type is named. Mirrors `ResolutionContext`. -/
structure Scope where
  /-- The declaration that the place is in. -/
  declaringType : Option String := none
  /-- The namespace of that declaration. -/
  declaringNamespace : Option String := none
  /-- The declarations around it, the innermost first. -/
  enclosingTypes : List String := []
  deriving DecidableEq, Repr

/-- The declarations that the place is in, the innermost first. Mirrors `type_scope`. -/
def Scope.types (scope : Scope) : List String := scope.declaringType.toList ++ scope.enclosingTypes

/-- Which names are enumerations, and which declarations have which others nested in them.
Mirrors `TypeRegistry`. -/
structure Registry where
  enums : List String := []
  /-- Owners with the names nested directly in them. -/
  nested : List (String × String) := []
  deriving DecidableEq, Repr

namespace Registry

/-- Whether some enumeration has this name. Mirrors `is_enum`. -/
def isEnum (registry : Registry) (name : String) : Bool := registry.enums.contains name

/-- Whether some declaration called `owner` has one called `name` nested in it.
Mirrors `owns_nested_type`. -/
def owns (registry : Registry) (owner name : String) : Bool := registry.nested.contains (owner, name)

/-- The innermost declaration of a scope that has one called `name` nested in it.
Mirrors `find_scope_owner`. -/
def owner? (registry : Registry) (scope : Scope) (name : String) : Option String :=
  scope.types.find? (registry.owns · name)

end Registry

end TypeBridge
