import TypeBridge.Source.Grammar.Statement

/-!
# The language of sources

The rules of all parts of the language, and the rules for members of types that are only checked: all
members but properties and types. They are those of the parser that `create_csharp_parser` makes.

Limitations: the rules only say which sources are accepted. How a parser mends faults, and the nodes that it
then makes, are left out.
-/
namespace TypeBridge.Source

/-- The rule of a part. -/
def Part.rule : Part → Rule Part
  | .type => Rules.anyType
  | .expression => Rules.chain Rules.term (.part .expression)
  | .term => Rules.term
  | .operand => Rules.operand
  | .guard => Rules.chain (.part .operand) (.part .guard)
  | .pattern => Rules.pattern
  | .simplePattern => Rules.simplePattern
  | .initializer => Rules.initializer
  | .designation => Rules.designation
  | .variable => Rules.assigned
  | .statement => Rules.anyStatement

/-- The grammar of the parts. -/
def language : Grammar Part := { rule := Part.rule, count := Part.count }

namespace Rules

open Rule

/-! ## Members -/

/-- What qualifies the name of a member that belongs to an interface. -/
def interfaceQualifier : Rule Part :=
  all [opt (all [.name, "::"]), many1 (all [simpleName, "."])]

/-- A function that gets or sets a value. -/
def accessor : Rule Part := all [.many attributeList, .many modifier, .kind .word, functionBody]

/-- The functions that get and set a value. -/
def accessors : Rule Part := .group .curly (.many accessor)

/-- The operators that a type may define. -/
def definedOperator : Rule Part :=
  oneOf ["!", "~", "++", "--", "true", "false", "+", "-", "*", "/", "%", "^", "|", "&", "<<", "==", "!=",
    "<=", "<", all [">", .many (all [.adjacent, ">"]), opt (all [.adjacent, "="])]]

/-- A type for functions. -/
def delegateDeclaration : Rule Part :=
  all ["delegate", .absent "*", type, .name, opt typeParameters, parameters, .many constraints, ";"]

/-- What follows the type of a member that has one and is no property. -/
def typedMember : Rule Part :=
  oneOf [
    all [opt interfaceQualifier, "operator", opt "checked", definedOperator, parameters, functionBody],
    all [opt interfaceQualifier, "this", .group .square (commas1 parameter),
      oneOf [accessors, all ["=>", expression, ";"]]],
    all [opt interfaceQualifier, .name, opt typeParameters, parameters, .many constraints, functionBody],
    all [commas1 declarator, ";"]]

/-- A member that is neither a property nor a type, after its attributes and modifiers. -/
def plainMember : Rule Part :=
  oneOf [
    delegateDeclaration,
    all ["event", type, oneOf [
      all [opt interfaceQualifier, .name, accessors],
      all [commas1 declarator, ";"]]],
    all [oneOf ["implicit", "explicit"], opt interfaceQualifier, "operator", opt "checked", type,
      parameters, functionBody],
    all ["~", .name, parameters, functionBody],
    all [.name, parameters, opt (all [":", oneOf ["this", "base"], callArguments]), functionBody],
    all [type, typedMember]]

/-- What follows the name of a property. -/
def propertyBody : Rule Part :=
  oneOf [
    all [accessors, opt (all ["=", initialValue, ";"])],
    all ["=>", expression, ";"]]

/-! ## Types -/

/-- The types that a type is derived from. -/
def bases : Rule Part := all [":", commas1 (all [type, opt callArguments])]

/-- A value of an enumeration, after its attributes. -/
def enumerationValue : Rule Part := all [.kind .word, opt (all ["=", expression])]

/-! ## Files -/

/-- The name of a library that is given to a source from outside. -/
def externAlias : Rule Part := all ["extern", "alias", .name, ";"]

/-- Attributes of the whole program. -/
def globalAttributes : Rule Part :=
  .group .square (all [oneOf ["assembly", "module"], ":", commas1 oneAttribute, opt ","])

end Rules

end TypeBridge.Source
