import TypeBridge.Text.Line

/-!
# The common margin

The margin of a text is the longest run of spaces and tabs with which every line that is not empty
begins. Removing it keeps the indentation of the lines relative to each other. Here only the line feed
ends a line, and a line of spaces and tabs alone is taken as empty.
-/
namespace TypeBridge.Text

/-- Whether a character indents: a space or a tab. -/
def isIndent (c : Char) : Bool := c == ' ' || c == '\t'

/-- The longest common beginning of two texts. -/
def commonStart : List Char → List Char → List Char
  | c :: s, d :: t => if c = d then c :: commonStart s t else []
  | _, _ => []

/-- The lines of a text that only line feeds end; one more than there are line feeds. -/
def feedLines (s : List Char) : List (List Char) := splitOn (· == '\n') s

/-- The common beginning of the indentations of the lines that are not empty. -/
def margin? (ls : List (List Char)) : Option (List Char) :=
  ((ls.filter (!·.isEmpty)).map (·.takeWhile isIndent)).foldl
    (fun margin indent => some ((margin.map (commonStart · indent)).getD indent)) none

/-- A line without the margin, when it begins with it. -/
def dropMargin (margin line : List Char) : List Char := (dropStart? margin line).getD line

/-- The text without its margin. -/
def removeMargin (s : List Char) : List Char :=
  let ls := (feedLines s).map fun line => if line.all isIndent then [] else line
  joinLines (ls.map (dropMargin ((margin? ls).getD [])))

end TypeBridge.Text
