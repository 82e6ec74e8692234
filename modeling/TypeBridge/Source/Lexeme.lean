import TypeBridge.Source.Literal
import TypeBridge.Text.Blank

/-!
# Lexemes

A source is cut into pieces that are characters of one kind: blanks, comments, directives, words, numbers,
literals and marks. The pieces are as long as they can be.

* `ofSource?_texts`: the texts of the lexemes, put together, are the source.
-/
namespace TypeBridge.Source

/-- The directives that divide a part of a source into branches. -/
inductive BranchMark where
  | ifBranch
  | elifBranch
  | elseBranch
  | endBranch
  deriving DecidableEq, Repr

/-- What a piece of a source is that the grammar does not see. -/
inductive Trivia.Kind where
  | blank
  | comment
  /-- A directive that divides nothing, with the blank lines after it. -/
  | directive
  deriving DecidableEq, Repr

/-- What a piece of a source is that the grammar sees. -/
inductive Token.Kind where
  | word
  | number
  | string
  | character
  | mark
  | branch (mark : BranchMark)
  deriving DecidableEq, Repr

namespace Lexeme

/-- What a piece of a source is. -/
inductive Kind where
  | trivia (kind : Trivia.Kind)
  | token (kind : Token.Kind)
  deriving DecidableEq, Repr

/-! ## Characters -/

/-- Whether a character only separates others: the blanks without the separators of records, and the
mark of the byte order. -/
def isSpace (c : Char) : Bool :=
  (Text.isBlank c && !(28 ≤ c.toNat && c.toNat ≤ 31)) || c.toNat == 0xFEFF

/-- Whether a word may begin with this character. -/
def isWordStart (c : Char) : Bool :=
  c.isAlpha || c == '_' || (0x80 ≤ c.toNat && !isSpace c)

/-- Whether a word may go on with this character. -/
def isWordPart (c : Char) : Bool := isWordStart c || c.isDigit

/-- Whether a line does not go on with this character. -/
def endsLine (c : Char) : Bool := c == '\n' || c == '\r'

/-! ## Lengths -/

/-- How many characters at the beginning of a text satisfy `p`. -/
def countWhile (p : Char → Bool) (s : List Char) : Nat := (s.takeWhile p).length

/-- How many characters of a text stand up to the end of the first occurrence of `*/`, if there is one. -/
def blockEnd? : List Char → Option Nat
  | '*' :: '/' :: _ => some 2
  | _ :: r => (blockEnd? r).map (· + 1)
  | [] => none

/-- The length of the comment that a text begins with. -/
def commentLength? : List Char → Option Nat
  | '/' :: '/' :: r => some (2 + countWhile (fun c => !endsLine c) r)
  | '/' :: '*' :: r => (blockEnd? r).map (· + 2)
  | _ => none

/-- The length of a word that may begin with `@`. -/
def wordLength? : List Char → Option Nat
  | '@' :: c :: r => if isWordStart c then some (2 + countWhile isWordPart r) else none
  | c :: r => if isWordStart c then some (1 + countWhile isWordPart r) else none
  | [] => none

/-! ### Numbers -/

/-- Whether a character is a digit or stands between two of them. -/
def isDigitPart (c : Char) : Bool := c.isDigit || c == '_'

/-- Whether a character is a hexadecimal digit or stands between two of them. -/
def isHexPart (c : Char) : Bool := isDigitPart c || Literal.isHexDigit c

/-- The length of the letters that say the type of an integer. -/
def integerSuffix (s : List Char) : Nat := countWhile ("uUlL".toList.contains ·) s

/-- The length of an exponent. -/
def exponentLength : List Char → Nat
  | e :: sign :: d :: r =>
    if e == 'e' || e == 'E' then
      if (sign == '+' || sign == '-') && d.isDigit then 3 + countWhile isDigitPart r
      else if sign.isDigit then 2 + countWhile isDigitPart (d :: r)
      else 0
    else 0
  | [e, d] => if (e == 'e' || e == 'E') && d.isDigit then 2 else 0
  | _ => 0

/-- The length of the letter that says the type of a number. -/
def realSuffix : List Char → Nat
  | c :: _ => if "fFdDmM".toList.contains c then 1 else 0
  | [] => 0

/-- The length of what may follow the digits of a number. -/
def numberTail (s : List Char) : Nat :=
  let exponent := exponentLength s
  let real := realSuffix (s.drop exponent)
  if exponent + real = 0 then integerSuffix s else exponent + real

/-- The length of the fraction of a number, with its point. -/
def fractionLength : List Char → Nat
  | '.' :: d :: r => if d.isDigit then 2 + countWhile isDigitPart r else 0
  | _ => 0

/-- The length of the number that a text begins with. -/
def numberLength? (s : List Char) : Option Nat :=
  let based (isDigit : Char → Bool) (r : List Char) : Option Nat :=
    let digits := countWhile isDigit r
    some (2 + digits + integerSuffix (r.drop digits))
  match s with
  | '0' :: 'x' :: r => based isHexPart r
  | '0' :: 'X' :: r => based isHexPart r
  | '0' :: 'b' :: r => based isDigitPart r
  | '0' :: 'B' :: r => based isDigitPart r
  | _ =>
    let whole := if (s.head?.map Char.isDigit).getD false then countWhile isDigitPart s else 0
    let fraction := fractionLength (s.drop whole)
    let digits := whole + fraction
    if digits = 0 then none else some (digits + numberTail (s.drop digits))

/-! ### Directives -/

/-- The words that name a directive without branches. -/
def directiveNames : List String :=
  ["region", "endregion", "pragma", "nullable", "define", "undef", "line", "error", "warning"]

/-- How many characters of a text stand up to the last line feed among its blanks. -/
def blankLines (s : List Char) : Nat :=
  let blanks := s.takeWhile isSpace
  blanks.length - countWhile (· != '\n') blanks.reverse

/-- How many characters of a text stand before its first line feed, if it has one. -/
def lineEnd? (s : List Char) : Option Nat :=
  let count := countWhile (· != '\n') s
  if count < s.length then some count else none

/-- The directive that a text begins with after its `#`, and its length without it. One that takes a line
needs the end of the line. -/
def directiveAfterHash? (s : List Char) : Option (Kind × Nat) :=
  let indentation := countWhile (fun c => c == ' ' || c == '\t') s
  let name := (s.drop indentation).takeWhile Char.isAlpha
  let before := indentation + name.length
  let rest := s.drop before
  match String.ofList name with
  | "else" => some (.token (.branch .elseBranch), before)
  | "endif" => some (.token (.branch .endBranch), before)
  | other =>
    match lineEnd? rest with
    | none => none
    | some count =>
      let condition : Option (Kind × Nat) := some (.token (.branch .ifBranch), before + count + 1)
      if other = "if" ∨ other = "elif" then
        if (rest.take count).all isSpace then none
        else if other = "if" then condition
        else some (.token (.branch .elifBranch), before + count + 1)
      else if directiveNames.contains other then
        some (.trivia .directive, before + count + blankLines (rest.drop count))
      else none

/-! ### Marks -/

/-- The marks of more than one character, the longer ones first. None begins with `>`: whether two of
these belong together depends on where they stand. -/
def longMarks : List String := [
  "<<=", "??=", "=>", "==", "!=", "<=", "<<", "&&", "||", "++", "--", "+=", "-=", "*=", "/=", "%=", "&=",
  "|=", "^=", "->", "::", "..", "??"]

/-- The marks of one character. -/
def shortMarks : String := "()[]\x7b\x7d<>,.;:?!~+-*/%&|^="

/-- The length of the mark that a text begins with. -/
def markLength? (s : List Char) : Option Nat :=
  match longMarks.find? (fun mark => mark.toList.isPrefixOf s) with
  | some mark => some mark.length
  | none =>
    match s with
    | '?' :: '.' :: d :: _ => if d.isDigit then some 1 else some 2
    | ['?', '.'] => some 2
    | c :: _ => if shortMarks.toList.contains c then some 1 else none
    | [] => none

/-! ## Pieces -/

/-- The kind and the length of the literal that a text begins with. -/
def literal? (s : List Char) : Option (Kind × Nat) :=
  if s.head? = some '\'' then (Literal.characterLength? s).map (.token .character, ·)
  else
    match Literal.length? s with
    | none => none
    | some length =>
      match s.drop length with
      | u :: '8' :: _ => some (.token .string, if u == 'u' || u == 'U' then length + 2 else length)
      | _ => some (.token .string, length)

/-- The kind of the piece that a text begins with, and its length. -/
def piece? (s : List Char) : Option (Kind × Nat) :=
  match s with
  | [] => none
  | c :: r =>
    if isSpace c then some (.trivia .blank, 1 + countWhile isSpace r)
    else if c == '#' then (directiveAfterHash? r).map fun (kind, length) => (kind, length + 1)
    else if c == '/' && (r.head? == some '/' || r.head? == some '*') then
      (commentLength? s).map (.trivia .comment, ·)
    else if (Literal.opening? s).isSome then literal? s
    else
      match wordLength? s with
      | some length => some (.token .word, length)
      | none =>
        match numberLength? s with
        | some length => some (.token .number, length)
        | none => (markLength? s).map (.token .mark, ·)

end Lexeme

/-- A piece of a source. -/
structure Lexeme where
  kind : Lexeme.Kind
  text : List Char
  deriving DecidableEq, Repr

namespace Lexeme

/-- The lexemes of a text after `taken` characters that belong to a lexeme already cut, when `piece`
gives the kind and the length of the lexeme that a text begins with. -/
def cut (piece : List Char → Option (Kind × Nat)) (taken : Nat) : List Char → Option (List Lexeme)
  | [] => some []
  | c :: r =>
    match taken with
    | taken + 1 => cut piece taken r
    | 0 =>
      match piece (c :: r) with
      | none => none
      | some (kind, length) =>
        (cut piece (length - 1) r).map (⟨kind, c :: r.take (length - 1)⟩ :: ·)

/-- The lexemes of a source; none if some part of it is no lexeme. -/
def ofSource? (source : List Char) : Option (List Lexeme) := cut piece? 0 source

theorem cut_texts {piece : List Char → Option (Kind × Nat)} {taken : Nat} {s : List Char}
    {ls : List Lexeme} (h : cut piece taken s = some ls) :
    ls.flatMap (·.text) = s.drop taken := by
  fun_induction cut piece taken s generalizing ls with
  | case1 => simp_all
  | case2 c r taken ih => simpa using ih h
  | case3 => cases h
  | case4 c r kind length _ ih =>
    obtain ⟨ms, hm, rfl⟩ := Option.map_eq_some_iff.1 h
    simp [ih hm]

theorem ofSource?_texts {source : List Char} {ls : List Lexeme} (h : ofSource? source = some ls) :
    ls.flatMap (·.text) = source := by
  simpa using cut_texts h

end Lexeme

end TypeBridge.Source
