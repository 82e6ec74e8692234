import TypeBridge.Source.Grammar.Part

/-!
# Rules for expressions and patterns

Operators are not ordered by how tightly they bind, since nothing depends on it: an expression is a chain
of terms. A generic name in an expression is told from a comparison by what follows it.
-/
namespace TypeBridge.Source.Rules

open Rule

/-! ## Operands -/

/-- What may follow a name that is applied to types in an expression. -/
def genericFollow : Rule Part :=
  oneOf [.atEnd, .anyGroup .round, .anyGroup .square, ":", ";", ",", ".", "?.", "?", "==", "!=", "|", "^",
    "&&", "||", "&", "::", "=>", "->", "!", "is", "as"]

/-- A name in an expression. -/
def nameOperand : Rule Part := oneOf [all [.name, arguments1, present genericFollow], .name]

/-- A type in parentheses before a value. Before a mark it may only be a type that has a word of its own,
since otherwise the mark joins two values. -/
def cast : Rule Part :=
  oneOf [
    all [.group .round type, present (oneOf [plainStart, "~", "!"])],
    all [.group .round (all [builtinType, .many (oneOf ["?", rank, "*"])]), present operandStart]]

/-- What stands before an operand. -/
def prefixOperator : Rule Part :=
  oneOf ["+", "-", "!", "~", "++", "--", "&", "*", "^", "ref", all ["await", present plainStart], cast]

/-- A new object or array. -/
def creation : Rule Part :=
  let initializer := .part .initializer
  let sizes := .group .square (oneOf [commas1 expression, .many ","])
  all ["new", oneOf [
    all [callArguments, opt initializer],
    .group .curly (commasEnd expression),
    all [rank, initializer],
    all [primaryType, oneOf [
      all [opt "?", callArguments, opt initializer],
      initializer,
      all [.many (oneOf ["?", "*"]), many1 sizes, opt initializer]]]]]

/-- A function without a name, written with a word. -/
def anonymousMethod : Rule Part :=
  all [.many (oneOf ["static", "async"]), "delegate", opt parameters, block]

/-- A value in parentheses, or a tuple. -/
def parenthesized : Rule Part :=
  oneOf [
    .group .round (commas1 (all [opt (all [.name, ":"]), expression])),
    all [.group .round (commas1 (.part .variable)), present "="]]

/-- An operand with nothing before and after it. -/
def primary : Rule Part :=
  oneOf [
    .kind .number, .kind .string, .kind .character, "true", "false", "null", "this", "base",
    all [oneOf ["typeof", "sizeof"], .group .round type],
    all ["default", opt (.group .round type)],
    all [oneOf ["checked", "unchecked"], .group .round expression],
    creation,
    all ["stackalloc", opt (all [primaryType, .many (oneOf ["?", "*"])]), .group .square (opt expression),
      opt (.part .initializer)],
    anonymousMethod,
    all ["..", opt (.part .operand)],
    all [.name, "::", nameOperand],
    nameOperand,
    all [builtinType, present "."],
    parenthesized,
    .group .square (commasEnd expression),
    .conditional (opt expression)]

/-- A case of a choice that gives a value. -/
def switchArm : Rule Part :=
  all [.part .pattern, opt (all ["when", .part .guard]), "=>", expression]

/-- What stands after an operand. -/
def postfixOperator : Rule Part :=
  oneOf [
    all [oneOf [".", "->", "?."], nameOperand],
    callArguments,
    elementArguments,
    all ["?", .adjacent, elementArguments],
    "++", "--", "!",
    all ["switch", .group .curly (commasEnd switchArm)],
    all ["with", .part .initializer]]

/-- An operand. -/
def operand : Rule Part := all [.many prefixOperator, primary, .many postfixOperator]

/-- The values of a new object or array. -/
def initializer : Rule Part :=
  .group .curly (commasEnd (oneOf [
    all [oneOf [.name, elementArguments], "=", .part .initializer],
    .part .initializer,
    expression]))

/-! ## Functions and queries -/

/-- A function without a name. -/
def lambda : Rule Part :=
  let parameterList := all [present (all [.anyGroup .round, "=>"]), parameters, "=>"]
  let attributesBefore := all [.anyGroup .square, oneOf [.kind .word, .anyGroup .round, .anyGroup .square]]
  all [.many (all [present attributesBefore, attributeList]), .many (oneOf ["static", "async"]),
    oneOf [all [.name, "=>"], parameterList, all [type, parameterList]],
    oneOf [block, expression]]

/-- The beginning of a query, or a source that it draws from as well. -/
def fromClause : Rule Part :=
  all ["from", oneOf [all [.name, "in"], all [type, .name, "in"]], expression]

/-- What a query does with the values that it draws. -/
def queryClause : Rule Part :=
  oneOf [
    fromClause,
    all ["let", .name, "=", expression],
    all ["where", expression],
    all ["join", oneOf [all [.name, "in"], all [type, .name, "in"]], expression, "on", expression,
      "equals", expression],
    all ["orderby", commas1 (all [expression, opt (oneOf ["ascending", "descending"])])],
    all ["select", expression],
    all ["group", expression, "by", expression],
    all ["into", .name]]

/-- A query. -/
def query : Rule Part := all [fromClause, many1 queryClause]

/-- A part of a chain. -/
def term : Rule Part := oneOf [query, lambda, all ["throw", expression], .part .operand]

/-! ## Chains -/

/-- An operator that gives a new value to what stands before it. -/
def assignmentOperator : Rule Part :=
  oneOf ["=", "+=", "-=", "*=", "/=", "%=", "&=", "|=", "^=", "??=", "<<=",
    all [">", many1 (all [.adjacent, ">"]), .adjacent, "="]]

/-- An operator between two terms. -/
def infixOperator : Rule Part :=
  oneOf [assignmentOperator, "+", "-", "*", "/", "%", "&", "|", "^", "&&", "||", "??", "==", "!=", "<", "<=",
    "<<", all [">", .many (all [.adjacent, ">"]), opt (all [.adjacent, "="])]]

/-- What follows a term in a chain of terms. -/
def chained (term chain : Rule Part) : Rule Part :=
  oneOf [
    all ["is", .part .pattern],
    all ["as", testedType],
    all ["?", chain, ":", chain],
    all ["..", opt (.part .operand)],
    all [infixOperator, term]]

/-- A chain of terms. -/
def chain (term chain : Rule Part) : Rule Part := all [term, .many (chained term chain)]

/-- An expression that may be a statement is one that is there for what it does. It begins with an operator
or with `await` or `new`, or it assigns something, or it ends with a call or a count. -/
def effectMark : Rule Part :=
  let ending := oneOf [.anyGroup .round, "++", "--", "!"]
  oneOf [
    "++", "--", "+", "-", "!", "~", "*", "&", "^", "await", "new",
    all [.many (all [.absent (oneOf [assignmentOperator, ";"]), anything]), assignmentOperator],
    all [.many (all [.absent (oneOf [";", all [ending, ";"]]), anything]), ending, ";"]]

/-- An expression that may be a statement. -/
def effect : Rule Part := all [present effectMark, expression]

/-! ## Patterns -/

/-- A value that a pattern compares with. -/
def constant : Rule Part :=
  all [.part .operand,
    .many (all [oneOf ["+", "-", "*", "/", "%", "|", "^", "&", "<<"], .part .operand])]

/-- A pattern for a part of a value. -/
def subpattern : Rule Part :=
  all [opt (all [.name, .many (all [".", .name]), ":"]), .part .pattern]

/-- The name that a value is bound to. -/
def designator : Rule Part := all [.absent joiningWord, .name]

/-- Patterns for the parts of a value. -/
def positional : Rule Part := .group .round (commas subpattern)

/-- Patterns for the properties of a value. -/
def properties : Rule Part := .group .curly (commasEnd subpattern)

/-- A pattern that no other patterns are combined into by words. -/
def simplePattern : Rule Part :=
  oneOf [
    all ["not", .part .simplePattern],
    all [oneOf ["<=", "<", all [">", opt (all [.adjacent, "="])]], constant],
    all ["var", .part .designation],
    all [present cast, constant],
    all [positional, opt properties, opt designator],
    all [properties, opt designator],
    all [.group .square (commasEnd (.part .pattern)), opt designator],
    all ["..", opt (.part .pattern)],
    all [testedType, .absent ".", opt positional, opt properties, opt designator,
      .many (all [oneOf ["+", "-", "*", "/", "%", "|", "^", "&", "<<"], .part .operand])],
    constant]

/-- A pattern. -/
def pattern : Rule Part :=
  all [.part .simplePattern, .many (all [oneOf ["and", "or"], .part .simplePattern])]

/-- Names that parts of a value are bound to. -/
def designation : Rule Part := oneOf [.name, .group .round (commas1 (.part .designation))]

/-- A variable, new or known, that a part of a value is assigned to. -/
def assigned : Rule Part :=
  oneOf [.group .round (commas1 (.part .variable)), all [type, .name], expression]

end TypeBridge.Source.Rules
