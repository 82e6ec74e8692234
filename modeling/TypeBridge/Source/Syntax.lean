import TypeBridge.Declaration.Basic
import TypeBridge.Source.Token

/-!
# Syntax of declarations

What is kept of the items of a source: namespaces, types, enumerations and properties, each with what
stands before it. Names are kept without `@`, and types as they are written but for their blanks.
-/
namespace TypeBridge.Source

/-- A parameter of a type, which becomes a member of it. -/
structure Parameter where
  attributes : List Attribute
  type : String
  name : String
  deriving DecidableEq, Repr

/-- A property of a type. -/
structure Property where
  /-- What stands before the property. -/
  lead : List Trivia
  attributes : List Attribute
  modifiers : List String
  /-- Whether the property is named as one of an interface. -/
  isExplicit : Bool
  type : String
  name : String
  deriving DecidableEq, Repr

/-- What is said about a type before its items. -/
structure TypeHeader where
  /-- What stands before the type. -/
  lead : List Trivia
  kind : TypeKind
  name : String
  typeParameters : List String := []
  parameters : List Parameter := []
  deriving DecidableEq, Repr

/-- An enumeration. -/
structure EnumerationSyntax where
  /-- What stands before the enumeration. -/
  lead : List Trivia
  name : String
  members : List String
  deriving DecidableEq, Repr

/-- An item of a source, a namespace or a type. -/
inductive Item where
  /-- A namespace, and the items in its braces. -/
  | namespaceBlock (name : String) (items : List Item)
  /-- A namespace for all items of the source that follow. -/
  | namespaceLine (name : String)
  | type (header : TypeHeader) (items : List Item)
  | enumeration (declaration : EnumerationSyntax)
  | property (property : Property)
  /-- Anything else. -/
  | other
  deriving Repr, BEq

end TypeBridge.Source
