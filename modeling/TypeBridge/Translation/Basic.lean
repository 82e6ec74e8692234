import TypeBridge.Translation.Scope
import TypeBridge.Translation.Template
import TypeBridge.Translation.TypeText
import TypeBridge.TypeExpr.Reader

/-!
# Translating types

The TypeScript text of a type expression at a place. A type that is optional as a whole gets a mark at
its end; an optional type inside another one becomes a union with `null`, however many times it is
marked as optional. A text that is not a type expression stands for itself.
-/
namespace TypeBridge

/-- What a translation depends on besides the place. Mirrors `CSharpToTypeScriptTypeTranslator`. -/
structure Translator where
  options : Options := {}
  registry : Registry := {}

namespace Translator

variable (translator : Translator)

/-! ## Names -/

/-- Whether the qualifier of a name counts for nothing. -/
def isBase (name : TypeName) : Bool := translator.options.baseNamespaces.contains name.first

/-- The name by which the rules know a generic type: its simple name, unless something that is no base
namespace qualifies it.
Mirrors `builtin_generic_name`. -/
def knownName? (name : TypeName) : Option String :=
  if name.qualifier.isEmpty || translator.isBase name then some name.simple else none

/-- The text of a name without a qualifier. Mirrors `translate_named` after its test for a qualifier. -/
def simpleText (scope : Scope) (name : String) : String :=
  match translator.options.scalars.get? name with
  | some text => text
  | none =>
    if translator.options.asyncResults.contains name then "Promise<void>"
    else if name = "Action" then "() => void"
    else
      match translator.registry.owner? scope name with
      | some owner => owner ++ "." ++ name
      | none => name

/-- Whether a namespace is another one than that of the place, when the place has one. -/
def isForeign (scope : Scope) (space : List String) : Bool :=
  match scope.declaringNamespace with
  | none => false
  | some here => ".".intercalate space != here

/-- The text of a name with a qualifier, whose last part is `owner`. Mirrors `resolve_qualified_name`. -/
def qualifiedText (scope : Scope) (name : TypeName) (owner : String) : String :=
  if translator.isBase name then translator.simpleText {} name.simple
  else if translator.registry.isEnum name.simple then name.simple
  else if translator.registry.owns owner name.simple then
    match translator.registry.owner? scope name.simple with
    | some inScope => inScope ++ "." ++ name.simple
    | none =>
      let space := name.qualifier.dropLast
      if !space.isEmpty && isForeign scope space then name.text else owner ++ "." ++ name.simple
  else if isForeign scope name.qualifier then name.text
  else name.simple

/-- The text of a name. Mirrors `translate_named`. -/
def nameText (scope : Scope) (name : TypeName) : String :=
  match name.qualifier.getLast? with
  | none => translator.simpleText scope name.simple
  | some owner => translator.qualifiedText scope name owner

/-! ## Generic types -/

/-- Whether a generic type with so many arguments marks its argument as optional.
Mirrors the second test of `unwrap_optional`. -/
def isNullable (name : TypeName) (count : Nat) : Bool :=
  count == 1 &&
    match translator.knownName? name with
    | some known => translator.options.nullableWrappers.contains known
    | none => false

/-- The template for a generic type with so many arguments. Mirrors the lookup in `translate_generic`. -/
def template? (name : TypeName) (count : Nat) : Option Template :=
  (translator.options.templates.get? ((translator.knownName? name).getD name.text)).filter
    (·.parameters.length == count)

/-- The text of a generic type that no rule knows. Mirrors the last lines of `translate_generic`. -/
def unknownText (scope : Scope) (name : TypeName) (arguments : List String) : String :=
  let base := if name.qualifier.isEmpty then name.simple else translator.nameText scope name
  TypeText.application base arguments

/-- The text of a generic type that the rules know as `known`, if one of them applies.
Mirrors the branches of `translate_generic` between the template and the unknown names. -/
def knownText? (known : String) (arguments : List String) : Option String :=
  let options := translator.options
  match arguments with
  | [argument] =>
    if options.orderedCollections.contains known then some (TypeText.array argument 1)
    else if options.passthroughGenerics.contains known then some (TypeText.application known arguments)
    else if options.tupleGenerics.contains known then some (TypeText.tuple arguments)
    else if options.asyncResults.contains known then some (TypeText.application "Promise" arguments)
    else if known = "Func" then some (TypeText.function [] argument)
    else if known = "Action" then some (TypeText.function arguments "void")
    else if known = "Predicate" then some ("(value: " ++ argument ++ ") => boolean")
    else none
  | _ =>
    if options.keyedCollections.contains known && arguments.length == 2 then
      some (TypeText.application "Record" arguments)
    else if options.tupleGenerics.contains known then some (TypeText.tuple arguments)
    else if known = "Func" then
      some (TypeText.function arguments.dropLast (arguments.getLastD ""))
    else if known = "Action" then some (TypeText.function arguments "void")
    else none

/-- The text of a generic type applied to arguments with the given texts. Mirrors `translate_generic`. -/
def genericText (scope : Scope) (name : TypeName) (arguments : List String) : String :=
  match translator.template? name arguments.length with
  | some template => template.fill arguments
  | none =>
    ((translator.knownName? name).bind (translator.knownText? · arguments)).getD
      (translator.unknownText scope name arguments)

/-! ## Types -/

mutual
/-- The text of a type inside another one. Mirrors `translate_node`. -/
def nested (scope : Scope) : TypeExpr → String
  | .named name => translator.nameText scope name
  | .generic name arguments =>
    let texts := nestedAll scope arguments
    if translator.isNullable name texts.length then TypeText.orNull (texts.headD "")
    else translator.genericText scope name texts
  | .array element rank => TypeText.array (nested scope element) rank
  | .nullable inner => TypeText.orNull (nested scope inner)
  | .tuple elements => TypeText.tuple (nestedElements scope elements)

/-- The texts of the arguments of a type. -/
def nestedAll (scope : Scope) : List TypeExpr → List String
  | [] => []
  | type :: types => nested scope type :: nestedAll scope types

/-- The texts of the elements of a tuple, whose labels do not matter. -/
def nestedElements (scope : Scope) : List (Option String × TypeExpr) → List String
  | [] => []
  | (_, type) :: elements => nested scope type :: nestedElements scope elements
end

/-- Whether a type is optional as a whole, and the type without the marks that make it so.
Mirrors the loop of `translate` over `unwrap_optional`. -/
def core : TypeExpr → Bool × TypeExpr
  | .nullable inner => (true, (core inner).2)
  | .generic name [argument] =>
    if translator.isNullable name 1 then (true, (core argument).2)
    else (false, .generic name [argument])
  | type => (false, type)

/-- The text of a type that is inside no other. Mirrors `translate`. -/
def text (scope : Scope) (type : TypeExpr) : String :=
  match translator.core type with
  | (true, inner) => translator.nested scope inner ++ String.singleton TypeText.optionalMark
  | (false, type) => translator.nested scope type

/-- The text of a type expression; a text that is none stands for itself, without the blanks around
it.
Mirrors `to_typescript_type`. -/
def translate (scope : Scope) (expression : String) : String :=
  match TypeExpr.parse expression with
  | .ok type => translator.text scope type
  | .error _ => .ofList (Text.trim expression.toList)

end Translator

end TypeBridge
