import TypeBridge.Text.Blank

/-!
# The text of translated types

How the TypeScript text of a type is put together from the texts of its parts, and what can be read off
such a text: whether it is optional, and whether it has an operator outside of all brackets, so that it
needs parentheses before a suffix.
-/
namespace TypeBridge.TypeText

/-- What stands at the end of the text of a type that may be absent altogether.
Mirrors `OPTIONALITY_MARKER`. -/
def optionalMark : Char := '?'

/-- The text without the mark of optional types, and whether it had one. Mirrors `split_optional`. -/
def splitOptional (text : String) : String × Bool :=
  match text.toList.reverse with
  | '?' :: r => (.ofList r.reverse, true)
  | _ => (text, false)

/-- Whether a character opens a bracket. -/
def isOpening (c : Char) : Bool := c == '(' || c == '<' || c == '[' || c == '\x7b'

/-- Whether a character closes a bracket. -/
def isClosing (c : Char) : Bool := c == ')' || c == '>' || c == ']' || c == '\x7d'

/-- Whether an arrow or a bar stands at depth zero, when the text begins at the given depth. The arrow
is read as one sign, so that its point closes no bracket. -/
def operatorAtDepth : Int → List Char → Bool
  | _, [] => false
  | depth, '=' :: '>' :: r => depth == 0 || operatorAtDepth depth r
  | depth, c :: r =>
    if isOpening c then operatorAtDepth (depth + 1) r
    else if isClosing c then operatorAtDepth (depth - 1) r
    else (c == '|' && depth == 0) || operatorAtDepth depth r

/-- Whether a bar of a union or an arrow of a function stands outside of all brackets.
Mirrors `has_top_level_operator`. -/
def hasTopLevelOperator (text : String) : Bool := operatorAtDepth 0 text.toList

/-- The text in front of the brackets of an array. Mirrors `as_array_element`. -/
def arrayElement (text : String) : String :=
  if hasTopLevelOperator text then "(" ++ text ++ ")" else text

/-- An array of the given rank, as arrays of arrays. -/
def array (element : String) (rank : Nat) : String :=
  arrayElement element ++ String.join (List.replicate rank "[]")

/-- The bar and the word that allow a missing value. -/
def nullSuffix : String := " | null"

/-- The text with a missing value allowed, which is said once. -/
def orNull (text : String) : String :=
  if Text.endsWith nullSuffix.toList text.toList then text else text ++ nullSuffix

/-- Texts with commas between them. -/
def commaSeparated (texts : List String) : String := ", ".intercalate texts

/-- A tuple of elements. -/
def tuple (elements : List String) : String := "[" ++ commaSeparated elements ++ "]"

/-- A generic type with arguments. -/
def application (name : String) (arguments : List String) : String :=
  name ++ "<" ++ commaSeparated arguments ++ ">"

/-- Parameters named by their positions. Mirrors `render_positional_parameters`. -/
def positionalParameters (types : List String) : String :=
  commaSeparated (types.zipIdx.map fun (type, i) => "p" ++ toString i ++ ": " ++ type)

/-- A function with parameters named by their positions. -/
def function (parameters : List String) (result : String) : String :=
  "(" ++ positionalParameters parameters ++ ") => " ++ result

end TypeBridge.TypeText
