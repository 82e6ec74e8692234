import TypeBridge.Documentation.Tag
import TypeBridge.Options
import TypeBridge.Text.CharacterReference
import TypeBridge.Text.Margin

/-!
# Documentation blocks

The comments before a declaration become a summary, code samples and remarks. Comments of lines that
begin with `///` are structured: they are marked up with elements. Where there are none, the text of
the comments is the summary.
-/
namespace TypeBridge.Documentation

open Text (lines trim)

/-- Lines of code in some language. Mirrors `CodeSample`. -/
structure CodeSample where
  language : String
  lines : List String
  deriving DecidableEq, Repr

/-- What is said about a declaration. Mirrors `DocumentationBlock`. -/
structure Block where
  summary : List String := []
  codeSamples : List CodeSample := []
  remarks : List String := []
  remarksIntroduction : String := "Remarks:"
  deriving DecidableEq, Repr

/-- A code sample between fences. Mirrors `fenced_lines`. -/
def CodeSample.fenced (sample : CodeSample) : List String :=
  ("```" ++ sample.language) :: sample.lines ++ ["```"]

/-- Whether nothing is said. Mirrors `is_empty`. -/
def Block.isEmpty (block : Block) : Bool :=
  block.summary.isEmpty && block.codeSamples.isEmpty && block.remarks.isEmpty

/-- A paragraph after what was said before, with an empty line between the two. -/
def addParagraph (before paragraph : List String) : List String :=
  (if before.isEmpty then [] else before ++ [""]) ++ paragraph

/-- The lines of a block: the summary, each code sample and the remarks, with empty lines between
them.
Mirrors `to_lines`. -/
def Block.lines (block : Block) : List String :=
  let said := block.codeSamples.foldl (fun said sample => addParagraph said sample.fenced) block.summary
  if block.remarks.isEmpty then said
  else addParagraph said (block.remarksIntroduction :: block.remarks)

/-! ## Text -/

/-- The last name in a reference to a declaration, without the letter of its kind, its qualifier and its
parameters.
Mirrors `display_name_for_reference`. -/
def displayName (reference : List Char) : List Char :=
  let name :=
    match reference with
    | c :: ':' :: r => if c.isUpper then r else reference
    | _ => reference
  Text.afterLast '.' (Text.splitFirst '(' name).1

/-- The lines of a section: references give their names, other tags are dropped, and character
references are resolved.
Mirrors `flatten_documentation_text`. -/
def flatten (section_ : List Char) : List (List Char) :=
  let s := Text.substitute
    (findReference ["see", "seealso"] ["cref", "href", "langword"] displayName) section_
  let s := Text.substitute (findReference ["paramref", "typeparamref"] ["name"] id) s
  let s := Text.resolveReferences (Text.substitute findTag s)
  Text.trimBlankLines ((lines s).map trim)

/-- The lines of a code sample, without the margin that they share. Mirrors `extract_code_sample`. -/
def codeLines (content : List Char) : List (List Char) :=
  let ls := (lines content).map fun line => Text.resolveReferences (Text.trimEnd line)
  lines (Text.removeMargin (Text.joinLines (Text.trimBlankLines ls)))

/-- A line of a block comment without the star in front of it. -/
def dropStar : List Char → List Char
  | '*' :: r => trim r
  | line => line

/-- The text of a comment that is not structured. Mirrors `strip_plain_comment`. -/
def plainLines (comment : List Char) : List (List Char) :=
  match trim comment with
  | '/' :: '*' :: body =>
    let body :=
      match body.reverse with
      | '/' :: '*' :: r => r.reverse
      | _ => body
    Text.trimBlankLines ((lines body).map fun line => dropStar (trim line))
  | s => [trim (s.dropWhile (· == '/'))]

/-! ## Blocks -/

/-- A line of a structured comment without its mark and one blank after it.
Mirrors `STRUCTURED_MARKER_REGEX`. -/
def dropMark (line : List Char) : List Char :=
  match Text.dropStart? ['/', '/', '/'] (Text.trimStart line) with
  | some (c :: r) => if Text.isBlank c then r else c :: r
  | some [] => []
  | none => line

/-- The block of a structured comment with the given text. A text without any tag is a summary.
Mirrors `extract_structured_documentation`. -/
def ofStructured (options : Options) (s : List Char) : Block :=
  let summary :=
    match (elements "summary" s).head? with
    | some content => flatten content
    | none => if hasTag s then [] else flatten s
  let remarks :=
    match (elements "remarks" s).head? with
    | some content => if opens "code" content then [] else flatten content
    | none => []
  { summary := summary.map .ofList
    codeSamples := (elements "code" s).map fun content =>
      { language := options.codeSampleLanguage, lines := (codeLines content).map .ofList }
    remarks := remarks.map .ofList
    remarksIntroduction := options.remarksIntroduction }

/-- Whether a line belongs to a structured comment. Mirrors the test for `STRUCTURED_COMMENT_PREFIX`. -/
def isStructured (line : List Char) : Bool :=
  (Text.dropStart? ['/', '/', '/'] (Text.trimStart line)).isSome

/-- The block of the comments before a declaration, if there are any. Mirrors `extract_documentation`. -/
def ofComments? (options : Options) (comments : List String) : Option Block :=
  if comments.isEmpty then none
  else
    let structured := (comments.flatMap fun comment => lines comment.toList).filter isStructured
    if structured.isEmpty then
      some {
        summary := comments.flatMap fun comment => (plainLines comment.toList).map .ofList
        remarksIntroduction := options.remarksIntroduction }
    else some (ofStructured options (Text.joinLines (structured.map dropMark)))

end TypeBridge.Documentation
