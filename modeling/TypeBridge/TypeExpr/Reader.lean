import TypeBridge.TypeExpr.Basic
import TypeBridge.TypeExpr.Token

/-!
# Reading type expressions

The grammar of type expressions, in terms of their tokens:

* a *type* is a primary type with suffixes, which apply from left to right: `?`, or brackets with
  commas between them;
* a *primary* type is a name, or elements in parentheses separated by commas; one element without a
  label in parentheses is the type of that element, anything else in parentheses is a tuple;
* an *element* is a type that a label may follow;
* a *name* has parts separated by dots, may follow `global::`, and may be applied to types in angle
  brackets.

A reader for a part of the grammar gives what it has read and the tokens that are left, or the fault
that stopped it. The readers for nested types are passed as arguments, and `readType` closes the
circle.

Limitations: types may be nested to any depth. How deep calls can be, in a program that runs, is left out.
-/
namespace TypeBridge.TypeExpr

/-- What could have stood where reading stopped. -/
inductive Expected where
  | type
  | name
  | token (token : Token)
  | nothing
  deriving DecidableEq, Repr

/-- What was expected, and the tokens that stood there instead. -/
structure Fault where
  expected : Expected
  rest : List Token
  deriving DecidableEq, Repr

/-- Reads some part of the grammar from the beginning of a list of tokens. -/
abbrev Reader (α : Type) := List Token → Except Fault (α × List Token)

/-! ## Suffixes -/

mutual
/-- The suffixes that follow a type. Mirrors the loop of `parse_type`. -/
def readSuffixes (type : TypeExpr) : Reader TypeExpr
  | .question :: rest => readSuffixes (.nullable type) rest
  | .openBracket :: rest => readRank type 1 rest
  | rest => .ok (type, rest)

/-- The rest of a pair of brackets after `rank - 1` commas, and the suffixes that follow it. -/
def readRank (type : TypeExpr) (rank : Nat) : Reader TypeExpr
  | .comma :: rest => readRank type (rank + 1) rest
  | .closeBracket :: rest => readSuffixes (.array type rank) rest
  | rest => .error ⟨.token .closeBracket, rest⟩
end

/-! ## Lists -/

/-- The items that follow the first one, each after a comma; there are at most as many as the first
number says. -/
def readMore {α : Type} (item : Reader α) : Nat → Reader (List α)
  | n + 1, .comma :: rest =>
    match item rest with
    | .error fault => .error fault
    | .ok (x, rest) =>
      match readMore item n rest with
      | .error fault => .error fault
      | .ok (xs, rest) => .ok (x :: xs, rest)
  | _, rest => .ok ([], rest)

/-- Items separated by commas, and the token that closes them. -/
def readList {α : Type} (item : Reader α) (close : Token) : Reader (List α) := fun ts =>
  match item ts with
  | .error fault => .error fault
  | .ok (x, rest) =>
    match readMore item rest.length rest with
    | .error fault => .error fault
    | .ok (_, []) => .error ⟨.token close, []⟩
    | .ok (xs, t :: rest) => if t = close then .ok (x :: xs, rest) else .error ⟨.token close, t :: rest⟩

/-! ## Names -/

/-- The parts of a name after the first, each after a dot. Mirrors the loop over dots in `parse_named`. -/
def readSegments : Reader (List String)
  | .dot :: .name text :: rest =>
    match readSegments rest with
    | .error fault => .error fault
    | .ok (segments, rest) => .ok (text :: segments, rest)
  | .dot :: rest => .error ⟨.name, rest⟩
  | rest => .ok ([], rest)

/-- The name that begins with `first`. -/
def readName (first : String) : Reader TypeName := fun ts =>
  match readSegments ts with
  | .error fault => .error fault
  | .ok (segments, rest) => .ok (.ofSegments first segments, rest)

/-- A name and the arguments that it is applied to. Mirrors `parse_named`. -/
def readNamed (type : Reader TypeExpr) (first : String) : Reader TypeExpr := fun ts =>
  match readName first ts with
  | .error fault => .error fault
  | .ok (name, .less :: rest) =>
    match readList type .greater rest with
    | .error fault => .error fault
    | .ok (arguments, rest) => .ok (.generic name arguments, rest)
  | .ok (name, rest) => .ok (.named name, rest)

/-! ## Tuples -/

/-- An element of a tuple. Mirrors `parse_tuple_element`. -/
def readElement (type : Reader TypeExpr) : Reader (Option String × TypeExpr) := fun ts =>
  match type ts with
  | .error fault => .error fault
  | .ok (t, .name label :: rest) => .ok ((some label, t), rest)
  | .ok (t, rest) => .ok ((none, t), rest)

/-- What elements in parentheses denote. Mirrors the end of `parse_tuple`. -/
def ofElements : List (Option String × TypeExpr) → TypeExpr
  | [(none, type)] => type
  | elements => .tuple elements

/-! ## Types -/

/-- A primary type. Mirrors `parse_primary` and `parse_tuple`. -/
def readPrimary (type : Reader TypeExpr) : Reader TypeExpr
  | .openParen :: rest =>
    match readList (readElement type) .closeParen rest with
    | .error fault => .error fault
    | .ok (elements, rest) => .ok (ofElements elements, rest)
  | .name "global" :: .alias :: .name first :: rest => readNamed type first rest
  | .name "global" :: .alias :: rest => .error ⟨.name, rest⟩
  | .name first :: rest => readNamed type first rest
  | rest => .error ⟨.type, rest⟩

/-- A type whose types are nested less deep than the given number. Mirrors `parse_type`. -/
def readType : Nat → Reader TypeExpr
  | 0 => fun ts => .error ⟨.type, ts⟩
  | depth + 1 => fun ts =>
    match readPrimary (readType depth) ts with
    | .error fault => .error fault
    | .ok (type, rest) => readSuffixes type rest

/-- The type that a list of tokens denotes. Types cannot be nested deeper than there are tokens.
Mirrors `TypeExpressionParser.parse`. -/
def ofTokens (ts : List Token) : Except Fault TypeExpr :=
  match readType (ts.length + 1) ts with
  | .error fault => .error fault
  | .ok (type, []) => .ok type
  | .ok (_, rest) => .error ⟨.nothing, rest⟩

/-! ## Faults -/

/-- Why a text is not a type expression. -/
inductive Cause where
  | character (fault : BadCharacter)
  | empty
  | grammar (fault : Fault)
  deriving DecidableEq, Repr

/-- The token that was found, or nothing at the end. -/
def Fault.found (fault : Fault) : String :=
  match fault.rest with
  | [] => "None"
  | t :: _ => Text.quoted t.text

/-- What is wrong with the tokens. -/
def Fault.message (fault : Fault) : String :=
  match fault.expected with
  | .type => "expected a type but found " ++ fault.found
  | .name => "expected an identifier but found " ++ fault.found
  | .token t => "expected " ++ Text.quoted t.text ++ " but found " ++ fault.found
  | .nothing => "unexpected token " ++ fault.found

/-- What is wrong with a text. -/
def Cause.message : Cause → String
  | .character fault =>
    "unexpected character " ++ Text.quoted (String.singleton fault.char) ++ " at offset " ++
      toString fault.offset
  | .empty => "empty type expression"
  | .grammar fault => fault.message

/-- The message for a text that is not a type expression. Mirrors `TypeGrammarError`. -/
def message (text : String) (cause : Cause) : String :=
  cause.message ++ " in type expression " ++ Text.quoted text

/-- The type expression that a text denotes. Mirrors `parse_type_expression`. -/
def parse (text : String) : Except Cause TypeExpr :=
  match tokens text with
  | .error fault => .error (.character fault)
  | .ok [] => .error .empty
  | .ok ts =>
    match ofTokens ts with
    | .error fault => .error (.grammar fault)
    | .ok type => .ok type

end TypeBridge.TypeExpr
