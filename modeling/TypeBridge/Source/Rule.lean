import TypeBridge.Source.Tree

/-!
# Rules

A language of rules for ordered choice grammars over trees. A rule takes some trees from the beginning of
a list, or fails. Of several choices the first one that does not fail counts. A rule may refer to parts of
a grammar; the grammar gives a rule for each of them.
-/
namespace TypeBridge.Source

/-- The words that are no names. -/
def reservedWords : List String := [
  "abstract", "as", "base", "bool", "break", "byte", "case", "catch", "char", "checked", "class", "const",
  "continue", "decimal", "default", "delegate", "do", "double", "else", "enum", "event", "explicit",
  "extern", "false", "finally", "fixed", "float", "for", "foreach", "goto", "if", "implicit", "in", "int",
  "interface", "internal", "is", "lock", "long", "namespace", "new", "null", "object", "operator", "out",
  "override", "params", "private", "protected", "public", "readonly", "ref", "return", "sbyte", "sealed",
  "short", "sizeof", "stackalloc", "static", "string", "struct", "switch", "this", "throw", "true", "try",
  "typeof", "uint", "ulong", "unchecked", "unsafe", "ushort", "using", "virtual", "void", "volatile",
  "while"]

/-- Whether a token is a name. -/
def Token.isName (token : Token) : Bool := token.kind == .word && !reservedWords.contains token.text

/-- A rule of a grammar with the given parts. -/
inductive Rule (α : Type) where
  /-- Takes nothing. -/
  | nothing
  /-- Takes a token with the given text. -/
  | text (s : String)
  /-- Takes a token of the given kind. -/
  | kind (k : Token.Kind)
  /-- Takes a name. -/
  | name
  /-- Takes nothing, but fails unless the next tree follows immediately on what is before it. -/
  | adjacent
  /-- Takes a group, all of whose body the rule takes. -/
  | group (bracket : Bracket) (body : Rule α)
  /-- Takes a group, whatever is in it. -/
  | anyGroup (bracket : Bracket)
  /-- Takes a condition, all of each of whose branches the rule takes. -/
  | conditional (branch : Rule α)
  /-- Takes what a part of the grammar takes. -/
  | part (p : α)
  | seq (first second : Rule α)
  | choice (first second : Rule α)
  /-- Takes what the rule takes as often as it takes something. -/
  | many (rule : Rule α)
  /-- Takes nothing, but fails unless the rule does. -/
  | absent (rule : Rule α)

namespace Rule

variable {α : Type}

instance : Coe String (Rule α) := ⟨.text⟩

/-- Takes what some rules take one after the other. -/
def all : List (Rule α) → Rule α
  | [] => .nothing
  | [rule] => rule
  | rule :: rules => .seq rule (all rules)

/-- Takes what the first of some rules takes that does not fail. -/
def oneOf : List (Rule α) → Rule α
  | [] => .absent .nothing
  | [rule] => rule
  | rule :: rules => .choice rule (oneOf rules)

/-- Takes what the rule takes, or nothing. -/
def opt (rule : Rule α) : Rule α := .choice rule .nothing

/-- Takes nothing, but fails if the rule does. -/
def present (rule : Rule α) : Rule α := .absent (.absent rule)

/-- Takes what the rule takes, one or more times. -/
def many1 (rule : Rule α) : Rule α := .seq rule (.many rule)

/-- Takes any token of the kinds that a grammar sees, or a group. -/
def anything : Rule α :=
  oneOf ([.word, .number, .string, .character, .mark].map .kind ++
    [.round, .square, .curly].map .anyGroup)

/-- Takes nothing, but fails unless nothing is left. -/
def atEnd : Rule α := .absent anything

/-- Takes items with a comma between each two. -/
def commas1 (item : Rule α) : Rule α := .seq item (.many (.seq "," item))

/-- Takes any number of items with a comma between each two. -/
def commas (item : Rule α) : Rule α := opt (commas1 item)

/-- Takes any number of items with a comma between each two and perhaps one at the end. -/
def commasEnd (item : Rule α) : Rule α := opt (.seq (commas1 item) (opt ","))

/-! ## Meaning -/

/-- What is left of some trees when something is taken from their beginning, or nothing when that fails. -/
abbrev Reading := List Tree → Option (List Tree)

/-- Reads as often as something is taken, but at most so often as the number says. -/
def Reading.repeated (reading : Reading) : Nat → List Tree → List Tree
  | 0, ts => ts
  | n + 1, ts =>
    match reading ts with
    | some rest => if rest.length < ts.length then repeated reading n rest else ts
    | none => ts

/-- Reads all of some trees. -/
def Reading.whole (reading : Reading) (ts : List Tree) : Bool := reading ts matches some []

/-- What a rule leaves over, when the parts of the grammar are read by `parts`. -/
def run (parts : α → Reading) : Rule α → Reading
  | .nothing, ts => some ts
  | .text s, ts =>
    match ts with
    | .leaf token :: rest => if token.text = s then some rest else none
    | _ => none
  | .kind k, ts =>
    match ts with
    | .leaf token :: rest => if token.kind = k then some rest else none
    | _ => none
  | .name, ts =>
    match ts with
    | .leaf token :: rest => if token.isName then some rest else none
    | _ => none
  | .adjacent, ts =>
    match ts with
    | tree :: _ => if tree.first.lead.isEmpty then some ts else none
    | [] => none
  | .group bracket body, ts =>
    match ts with
    | .group b _ trees _ :: rest =>
      if b = bracket ∧ Reading.whole (run parts body) trees then some rest else none
    | _ => none
  | .anyGroup bracket, ts =>
    match ts with
    | .group b _ _ _ :: rest => if b = bracket then some rest else none
    | _ => none
  | .conditional branch, ts =>
    match ts with
    | .conditional branches _ :: rest =>
      if branches.all fun b => Reading.whole (run parts branch) b.2 then some rest else none
    | _ => none
  | .part p, ts => parts p ts
  | .seq first second, ts => (run parts first ts).bind (run parts second)
  | .choice first second, ts => (run parts first ts).orElse fun _ => run parts second ts
  | .many rule, ts => some (Reading.repeated (run parts rule) ts.length ts)
  | .absent rule, ts => if (run parts rule ts).isSome then none else some ts

end Rule

/-- A grammar: its parts, and a rule for each of them. No part may take nothing before it refers to
itself again. -/
structure Grammar (α : Type) where
  rule : α → Rule α
  /-- The number of parts. -/
  count : Nat

namespace Grammar

variable {α : Type} (grammar : Grammar α)

/-- What a part leaves over, when parts are nested no deeper than the number says. -/
def read : Nat → α → Rule.Reading
  | 0, _, _ => none
  | depth + 1, p, ts => (grammar.rule p).run (read depth) ts

/-- How deep parts can be nested in reading some trees: between two tokens, each part is entered at most
once. -/
def depth (ts : List Tree) : Nat := grammar.count * (Tree.size ts + 1) + 1

/-- What a rule leaves over of some trees. -/
def rest? (rule : Rule α) (ts : List Tree) : Option (List Tree) :=
  rule.run (grammar.read (grammar.depth ts)) ts

/-- The trees that a rule takes from the beginning of some trees, and those that it leaves over. -/
def split? (rule : Rule α) (ts : List Tree) : Option (List Tree × List Tree) :=
  (grammar.rest? rule ts).map fun rest => (ts.take (ts.length - rest.length), rest)

/-- Whether a rule takes all of some trees. -/
def takesAll (rule : Rule α) (ts : List Tree) : Bool := grammar.rest? rule ts matches some []

end Grammar

end TypeBridge.Source
