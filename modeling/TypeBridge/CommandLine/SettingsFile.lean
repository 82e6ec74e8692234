import TypeBridge.Table
import TypeBridge.Text.Blank

/-!
# Settings files

A settings file gives values to names, one to a statement. A statement may begin with `export`; its value
may be in single or double quotes, and may then go on over several lines. A comment begins with `#`. In a
value, `${name}` stands for the value of another name, and `${name:-usual}` gives a value for the case that
there is none. A statement that breaks these rules is passed over, to the end of the line on which it does.

The readers for parts of a statement give what they have read and the text after it, or nothing when the
text does not begin with such a part.
-/
namespace TypeBridge.CommandLine.SettingsFile

open Text (isBlank)

/-! ## Blanks -/

/-- Whether a character is blank and ends no line. -/
def isInnerBlank (c : Char) : Bool := isBlank c && c != '\n'

/-- A text in which every line ends with a line feed alone. -/
def unifyLines : List Char → List Char
  | [] => []
  | '\r' :: '\n' :: r => '\n' :: unifyLines r
  | '\r' :: r => '\n' :: unifyLines r
  | c :: r => c :: unifyLines r

/-! ## Names -/

/-- The text after `export` and blanks, if it begins with them. -/
def dropExport (s : List Char) : List Char :=
  match Text.dropStart? "export".toList s with
  | none => s
  | some rest =>
    if (rest.head?.map isInnerBlank).getD false then rest.dropWhile isInnerBlank else s

/-- Whether a name without quotes goes on with this character. -/
def isNamePart (c : Char) : Bool := c != '=' && c != '#' && !isBlank c

/-- Reads the name of a statement; where a comment begins there is none. -/
def readName : List Char → Option (Option (List Char) × List Char)
  | '#' :: r => some (none, '#' :: r)
  | '\'' :: r =>
    match r.span (· != '\'') with
    | ([], _) => none
    | (name, _ :: rest) => some (some name, rest)
    | (_, []) => none
  | s =>
    match s.span isNamePart with
    | ([], _) => none
    | (name, rest) => some (some name, rest)

/-! ## Values -/

/-- The text before the quote that ends a value, and the text after it. A quote after a backslash is a part
of the value. -/
def untilQuote (quote : Char) : List Char → Option (List Char × List Char)
  | [] => none
  | '\\' :: c :: r =>
    if c = quote then
      match untilQuote quote r with
      | some (value, rest) => some ('\\' :: c :: value, rest)
      | none => some (['\\'], r)
    else (untilQuote quote (c :: r)).map fun (value, rest) => ('\\' :: value, rest)
  | c :: r =>
    if c = quote then some ([], r)
    else (untilQuote quote r).map fun (value, rest) => (c :: value, rest)

/-- The character that a character after a backslash stands for in double quotes. -/
def escaped? : Char → Option Char
  | '\\' => some '\\'
  | '\'' => some '\''
  | '"' => some '"'
  | 'a' => some '\x07'
  | 'b' => some '\x08'
  | 'f' => some '\x0c'
  | 'n' => some '\n'
  | 'r' => some '\r'
  | 't' => some '\t'
  | 'v' => some '\x0b'
  | _ => none

/-- The character that a character after a backslash stands for in single quotes. -/
def escapedOnce? : Char → Option Char
  | '\\' => some '\\'
  | '\'' => some '\''
  | _ => none

/-- A text with the pairs resolved that a backslash begins. -/
def resolveEscapes (meaning : Char → Option Char) : List Char → List Char
  | [] => []
  | '\\' :: c :: r =>
    match meaning c with
    | some d => d :: resolveEscapes meaning r
    | none => '\\' :: resolveEscapes meaning (c :: r)
  | c :: r => c :: resolveEscapes meaning r

/-- A line before the first comment that follows blanks; `blanks` are those just before the text, the
last of which comes first. -/
def beforeComment (blanks : List Char) : List Char → List Char
  | [] => blanks.reverse
  | c :: r =>
    if isBlank c then beforeComment (c :: blanks) r
    else if c = '#' ∧ blanks ≠ [] then []
    else blanks.reverse ++ c :: beforeComment [] r

/-- Reads a value. -/
def readValue : List Char → Option (List Char × List Char)
  | '\'' :: r =>
    (untilQuote '\'' r).map fun (value, rest) => (resolveEscapes escapedOnce? value, rest)
  | '"' :: r => (untilQuote '"' r).map fun (value, rest) => (resolveEscapes escaped? value, rest)
  | s =>
    let (line, rest) := s.span (· != '\n')
    some (Text.trimEnd (beforeComment [] line), rest)

/-! ## Statements -/

/-- Passes over a comment. -/
def dropComment (s : List Char) : List Char :=
  match s.dropWhile isInnerBlank with
  | '#' :: r => r.dropWhile (· != '\n')
  | _ => s

/-- Passes over the end of a line. -/
def dropLineEnd (s : List Char) : Option (List Char) :=
  match s.dropWhile isInnerBlank with
  | [] => some []
  | '\n' :: r => some r
  | _ => none

/-- A name and its value; there may be no value, or only a comment and so not even a name. -/
abbrev Statement := Option (List Char × Option (List Char))

/-- Reads a value after an equals sign, when there is one. Where it fails, the rest of the text is given. -/
def readAssignment (s : List Char) : Except (List Char) (Option (List Char) × List Char) :=
  match s with
  | '=' :: r =>
    let r := r.dropWhile isInnerBlank
    match readValue r with
    | some (value, rest) => .ok (some value, rest)
    | none => .error r
  | _ => .ok (none, s)

/-- Reads a statement that does not begin with a blank. Where it breaks the rules, the rest of the text is
given. -/
def readStatement (s : List Char) : Except (List Char) (Statement × List Char) :=
  let start := dropExport s
  match readName start with
  | none => .error start
  | some (name, rest) =>
    match readAssignment (rest.dropWhile isInnerBlank) with
    | .error place => .error place
    | .ok (value, rest) =>
      let rest := dropComment rest
      match dropLineEnd rest with
      | none => .error rest
      | some rest => .ok (name.map (·, value), rest)

/-- A text without its first line. -/
def dropLine (s : List Char) : List Char := (s.dropWhile (· != '\n')).drop 1

/-- What a settings file says: values, and the numbers of the lines where a statement begins that breaks
the rules. -/
structure Content where
  values : List (String × Option (List Char)) := []
  faults : List Nat := []
  deriving DecidableEq, Repr

/-- Reads statements from the line with the given number on, at most as many as the first number says. -/
def readStatements : Nat → Nat → List Char → Content
  | 0, _, _ => {}
  | _ + 1, _, [] => {}
  | count + 1, line, s =>
    let start := s.dropWhile isBlank
    let lineAfter (rest : List Char) : Nat :=
      line + (s.take (s.length - rest.length)).count '\n'
    if start.isEmpty then {}
    else
      match readStatement start with
      | .ok (statement, rest) =>
        let later := readStatements count (lineAfter rest) rest
        match statement with
        | some (name, value) => { later with values := (.ofList name, value) :: later.values }
        | none => later
      | .error place =>
        let rest := dropLine place
        let later := readStatements count (lineAfter rest) rest
        { later with faults := line :: later.faults }

/-- What the text of a settings file says. -/
def read (s : List Char) : Content :=
  let s := unifyLines s
  readStatements s.length 1 s

/-! ## References -/

/-- The name in a reference, the value that it gives for the case that there is none, and the text after
the reference. -/
def reference? : List Char → Option (List Char × List Char × List Char)
  | '$' :: '\x7b' :: r =>
    let (name, rest) := r.span fun c => c != '\x7d' && c != ':'
    match rest with
    | '\x7d' :: rest => some (name, [], rest)
    | ':' :: '-' :: rest =>
      match rest.span (· != '\x7d') with
      | (usual, _ :: rest) => some (name, usual, rest)
      | (_, []) => none
    | _ => none
  | _ => none

/-- A text with its references replaced, after `taken` characters that belong to a reference. -/
def resolveFrom (known : String → Option (List Char)) (taken : Nat) : List Char → List Char
  | [] => []
  | c :: r =>
    match taken with
    | taken + 1 => resolveFrom known taken r
    | 0 =>
      match reference? (c :: r) with
      | some (name, usual, rest) =>
        (known (.ofList name)).getD usual ++ resolveFrom known (r.length - rest.length) r
      | none => c :: resolveFrom known 0 r

/-- The value that a name has: the one in the table of those read so far, or else that of the
environment. A name that is read without a value has an empty one. -/
def known (environment : List (String × String)) (table : Table (Option (List Char))) (name : String) :
    Option (List Char) :=
  match table.get? name with
  | some value => some (value.getD [])
  | none => (environment.lookup name).map String.toList

/-- The values of names, with the references in them replaced in order. -/
def resolveValues (environment : List (String × String)) (values : List (String × Option (List Char))) :
    Table (Option (List Char)) :=
  values.foldl
    (fun table (name, value) =>
      table.insert name (value.map (resolveFrom (known environment table) 0)))
    []

end TypeBridge.CommandLine.SettingsFile
