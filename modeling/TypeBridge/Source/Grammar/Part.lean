import TypeBridge.Source.Rule

/-!
# Parts of the language

The parts of the grammar of sources that refer to one another, and the rules for what all of them use:
types, attributes and lists.
-/
namespace TypeBridge.Source

/-- The parts of the language that may be nested in themselves. -/
inductive Part where
  | type
  | expression
  /-- What combines into expressions by operators of two sides. -/
  | term
  /-- A term that is neither a query nor a function. -/
  | operand
  /-- The condition of a case: an expression that is not a function. -/
  | guard
  | pattern
  /-- A pattern that no other patterns are combined into by words. -/
  | simplePattern
  | initializer
  /-- Names that parts of a value are bound to. -/
  | designation
  /-- A variable, new or known, that a part of a value is assigned to. -/
  | variable
  | statement
  deriving DecidableEq, Repr

/-- The number of parts. -/
def Part.count : Nat := 11

namespace Rules

open Rule

/-! ## Names and types -/

/-- A type. -/
def type : Rule Part := .part .type

/-- An expression. -/
def expression : Rule Part := .part .expression

/-- What a generic name is applied to. -/
def arguments1 : Rule Part := all ["<", commas1 type, ">"]

/-- What a generic name is applied to; arguments that are left open are only counted. -/
def typeArguments : Rule Part := oneOf [arguments1, all ["<", .many ",", ">"]]

/-- A name that may be applied to types. -/
def simpleName : Rule Part := all [.name, opt typeArguments]

/-- A name with all that qualifies it. -/
def qualifiedName : Rule Part :=
  all [opt (all [.name, "::"]), simpleName, .many (all [".", simpleName])]

/-- The types that have a word of their own. -/
def builtinType : Rule Part :=
  oneOf ["bool", "byte", "char", "decimal", "double", "float", "int", "long", "object", "sbyte", "short",
    "string", "uint", "ulong", "ushort", "void"]

/-- The type of pointers to functions. -/
def functionPointer : Rule Part :=
  all ["delegate", "*", opt (all [oneOf ["managed", "unmanaged"], opt (.anyGroup .square)]),
    "<", commas1 (all [opt (oneOf ["ref", "out", "in"]), type]), ">"]

/-- The elements of a tuple, two at least. -/
def tupleElements : Rule Part :=
  let element := all [type, opt .name]
  all [element, ",", commas1 element]

/-- A type without anything after it. -/
def primaryType : Rule Part :=
  oneOf [functionPointer, .group .round tupleElements, builtinType, qualifiedName]

/-- The brackets of an array type. -/
def rank : Rule Part := .group .square (.many ",")

/-- A type with all that may follow it. -/
def anyType : Rule Part :=
  all [opt (all ["ref", opt "readonly"]), primaryType, .many (oneOf ["?", rank, "*"])]

/-- The words that stand between expressions, although they may also be names. -/
def joiningWord : Rule Part :=
  oneOf ["and", "or", "when", "with", "where", "select", "orderby", "join", "let", "group", "into", "on",
    "equals", "by", "ascending", "descending", "is", "as", "in", "switch"]

/-- The beginning of an operand that is not a mark. -/
def plainStart : Rule Part :=
  oneOf [all [.absent joiningWord, .kind .word], .kind .number, .kind .string, .kind .character,
    .anyGroup .round]

/-- The beginning of an operand. -/
def operandStart : Rule Part :=
  oneOf [plainStart, .anyGroup .square, "+", "-", "!", "~", "++", "--", "&", "*", "^", ".."]

/-- A type after an expression, where a question mark may also begin the choice between two values. -/
def testedType : Rule Part :=
  all [primaryType, .many rank, opt (all ["?", .absent operandStart]), .many rank]

/-! ## Attributes and parameters -/

/-- The arguments of an attribute. -/
def attributeArgument : Rule Part := all [opt (all [.name, oneOf [":", "="]]), expression]

/-- An attribute. -/
def oneAttribute : Rule Part := all [qualifiedName, opt (.group .round (commas attributeArgument))]

/-- What an attribute is applied to. -/
def attributeTarget : Rule Part := all [.kind .word, ":"]

/-- Attributes in brackets. -/
def attributeList : Rule Part :=
  .group .square (all [opt attributeTarget, commas1 oneAttribute, opt ","])

/-- The attributes of something; some of them may depend on a condition. -/
def attributes : Rule Part :=
  .many (oneOf [attributeList, all [.conditional (opt attributeList), .absent .atEnd]])

/-- The words before the type of a parameter. -/
def parameterModifier : Rule Part := oneOf ["this", "ref", "out", "in", "readonly", "scoped"]

/-- A parameter that takes all arguments that are left. -/
def restParameter : Rule Part := all ["params", type, .name]

/-- A parameter. -/
def parameter : Rule Part :=
  all [attributes,
    oneOf [restParameter, all [.many parameterModifier, type, .name], .name],
    opt (all ["=", expression])]

/-- Parameters in parentheses. -/
def parameters : Rule Part := .group .round (commas parameter)

/-! ## Arguments -/

/-- An argument of a call. -/
def argument : Rule Part :=
  all [opt (all [.name, ":"]),
    oneOf [all [oneOf ["ref", "out", "in"], oneOf [all [type, .name], expression]], expression]]

/-- The arguments of a call. -/
def callArguments : Rule Part := .group .round (commas argument)

/-- The arguments of an access to an element. -/
def elementArguments : Rule Part := .group .square (commas1 argument)

/-- Statements in braces. -/
def block : Rule Part := .group .curly (.many (.part .statement))

end Rules

end TypeBridge.Source
