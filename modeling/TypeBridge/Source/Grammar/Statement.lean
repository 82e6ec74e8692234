import TypeBridge.Source.Grammar.Expression

/-!
# Rules for statements
-/
namespace TypeBridge.Source.Rules

open Rule

/-- A statement. -/
def statement : Rule Part := .part .statement

/-! ## Declarations -/

/-- The words before a declaration. -/
def modifier : Rule Part :=
  oneOf (["abstract", "const", "extern", "fixed", "internal", "new", "override", "partial", "private",
      "protected", "public", "readonly", "required", "sealed", "static", "unsafe", "virtual",
      "volatile"].map .text ++
    [all [oneOf ["async", "file"], present (oneOf [.kind .word, .anyGroup .round])]])

/-- The first value of a variable or a property. -/
def initialValue : Rule Part := oneOf [.part .initializer, expression]

/-- A variable and its first value. -/
def declarator : Rule Part :=
  all [.name, opt (.group .square (commas expression)), opt (all ["=", initialValue])]

/-- Variables of one type. -/
def declarators : Rule Part := all [opt "scoped", type, commas1 declarator]

/-- A parameter of a generic declaration. -/
def typeParameter : Rule Part := all [.many attributeList, opt (oneOf ["in", "out"]), .name]

/-- The parameters of a generic declaration. -/
def typeParameters : Rule Part := all ["<", commas1 typeParameter, ">"]

/-- What is demanded of a parameter of a generic declaration. -/
def constraints : Rule Part :=
  all ["where", .name, ":", commas1 (oneOf [
    all ["class", opt "?"], "struct", "default", all ["new", .group .round .nothing], type])]

/-- What a function does. -/
def functionBody : Rule Part := oneOf [block, all ["=>", expression, ";"], ";"]

/-- A function inside of a function. -/
def localFunction : Rule Part :=
  all [.many attributeList, .many modifier, type, .name, opt typeParameters, parameters,
    .many constraints, functionBody]

/-- New variables. -/
def localVariables : Rule Part := all [.many attributeList, .many modifier, declarators, ";"]

/-! ## Choices and loops -/

/-- The label of a case. -/
def caseLabel : Rule Part :=
  oneOf [
    all ["case", .part .pattern, opt (all ["when", expression]), ":"],
    all ["default", ":"]]

/-- A choice between statements. -/
def switchStatement : Rule Part :=
  all ["switch", .group .round (commas1 argument),
    .group .curly (.many (all [many1 caseLabel, .many statement]))]

/-- A loop with a counter. -/
def forStatement : Rule Part :=
  all ["for",
    .group .round (all [opt (oneOf [all [declarators, present ";"], commas1 expression]), ";",
      opt expression, ";", commas expression]),
    statement]

/-- A loop over the elements of a collection. -/
def foreachStatement : Rule Part :=
  all [opt "await", "foreach",
    .group .round (all [
      oneOf [all [opt "scoped", type, .name], all ["var", .part .designation], .part .variable], "in",
      expression]),
    statement]

/-! ## Exceptions and resources -/

/-- A statement that handles exceptions. -/
def tryStatement : Rule Part :=
  all ["try", block,
    .many (all ["catch", opt (.group .round (all [type, opt .name])),
      opt (all ["when", .group .round expression]), block]),
    opt (all ["finally", block])]

/-- A statement that uses a resource. -/
def usingStatement : Rule Part :=
  all [opt "await", "using", oneOf [
    all [.group .round (oneOf [all [declarators, .atEnd], expression]), statement],
    all [declarators, ";"]]]

/-- A statement that goes on elsewhere. -/
def jump : Rule Part :=
  all [oneOf [
    "break", "continue",
    all ["return", opt expression],
    all ["throw", opt expression],
    all ["goto", oneOf [all ["case", expression], "default", .name]],
    all ["yield", oneOf [all ["return", expression], "break"]]], ";"]

/-- A statement of its own kind by its first word. -/
def keywordStatement : Rule Part :=
  oneOf [
    all ["if", .group .round expression, statement, opt (all ["else", statement])],
    all ["while", .group .round expression, statement],
    all ["do", statement, "while", .group .round expression, ";"],
    forStatement, foreachStatement, switchStatement, tryStatement, usingStatement, jump,
    all ["lock", .group .round expression, statement],
    all ["fixed", .group .round declarators, statement],
    all [oneOf ["unsafe", "checked", "unchecked"], block]]

/-- A statement that a condition may hold, besides other statements. -/
def usingDirective : Rule Part :=
  all [opt "global", "using", oneOf [
    all [opt "unsafe", .name, "=", type, ";"],
    all [opt "static", opt "unsafe", qualifiedName, ";"]]]

/-- A statement. -/
def anyStatement : Rule Part :=
  oneOf [
    block, ";", keywordStatement,
    all [.name, ":", statement],
    .conditional (.many (oneOf [usingDirective, statement])),
    localVariables, localFunction,
    all [effect, ";"]]

end TypeBridge.Source.Rules
