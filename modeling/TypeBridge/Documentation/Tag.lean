import TypeBridge.Text.Blank
import TypeBridge.Text.Substitute
import TypeBridge.Text.Word

/-!
# Tags in documentation text

Documentation is marked up with elements `<name …>content</name>` and with self-closing tags that have
one attribute. An element ends at the first closing tag of its name, so elements of one name do not
nest, and a tag runs up to the first `>`.
-/
namespace TypeBridge.Documentation

open Text (Finder dropStart? trimStart)

/-! ## Elements -/

/-- The text after the opening tag of an element that stands at the beginning of a text. -/
def afterOpening? (name s : List Char) : Option (List Char) := do
  let rest ← dropStart? ('<' :: name) s
  if Text.beginsWithWordChar rest then none
  else (Text.splitFirst '>' rest).2

/-- The text after the closing tag of an element that stands at the beginning of a text. -/
def afterClosing? (name s : List Char) : Option (List Char) := do
  let rest ← dropStart? ('<' :: '/' :: name) s
  match trimStart rest with
  | '>' :: rest => some rest
  | _ => none

/-- The text before the first closing tag, and the text after it. -/
def untilClosing? (name : List Char) : List Char → Option (List Char × List Char)
  | [] => none
  | c :: r =>
    match afterClosing? name (c :: r) with
    | some rest => some ([], rest)
    | none => (untilClosing? name r).map fun (content, rest) => (c :: content, rest)

/-- The content of an element that stands at the beginning of a text, and the text after it.
Mirrors `SUMMARY_REGEX`, `REMARKS_REGEX` and `CODE_REGEX`. -/
def findElement (name : List Char) : Finder := fun s => do
  untilClosing? name (← afterOpening? name s)

/-- The contents of all elements of a name, from the first on, after `taken` characters that belong to an
element already found. -/
def elementsFrom (name : List Char) : (taken : Nat) → List Char → List (List Char)
  | _, [] => []
  | taken + 1, _ :: r => elementsFrom name taken r
  | 0, c :: r =>
    match findElement name (c :: r) with
    | some (content, rest) => content :: elementsFrom name (r.length - rest.length) r
    | none => elementsFrom name 0 r

/-- The contents of all elements of a name, in order. -/
def elements (name : String) (s : List Char) : List (List Char) := elementsFrom name.toList 0 s

/-- Whether the name of an element is opened somewhere, though its tag need not be complete.
Mirrors `CODE_OPENING_REGEX`. -/
def opens (name : String) : List Char → Bool
  | [] => false
  | c :: r =>
    match dropStart? ('<' :: name.toList) (c :: r) with
    | some rest => !Text.beginsWithWordChar rest || opens name r
    | none => opens name r

/-! ## Tags -/

/-- A tag of any kind that stands at the beginning of a text; nothing takes its place.
Mirrors `ANY_TAG_REGEX`. -/
def findTag : Finder
  | '<' :: c :: r =>
    if c = '>' then none
    else
      match Text.splitFirst '>' r with
      | (_, some rest) => some ([], rest)
      | (_, none) => none
  | _ => none

/-- Whether a text has a tag. -/
def hasTag : List Char → Bool
  | [] => false
  | c :: r => (findTag (c :: r)).isSome || hasTag r

/-- The text after one of the words, and after the blanks that follow it. -/
def afterWord? (words : List String) (s : List Char) : Option (List Char) :=
  (words.findSome? fun word => dropStart? word.toList s).map trimStart

/-- The text after the name of a tag, of which there are some to choose from, and the blanks that
separate it from an attribute. -/
def afterTagName? (names : List String) (s : List Char) : Option (List Char) :=
  names.findSome? fun name =>
    match dropStart? ('<' :: name.toList) s with
    | some (c :: r) => if Text.isBlank c then some (trimStart r) else none
    | _ => none

/-- Finds self-closing tags with one of the given names and one attribute of the given names, and puts a
text made from its value in their place.
Mirrors `REFERENCE_TAG_REGEX` and `NAME_REFERENCE_TAG_REGEX`. -/
def findReference (names attributes : List String) (render : List Char → List Char) : Finder :=
  fun s => do
    let s ← afterTagName? names s
    let s ← afterWord? attributes s
    let s ← afterWord? ["="] s
    match s with
    | '"' :: s =>
      let (value, s) := Text.splitFirst '"' s
      let rest ← dropStart? ['/', '>'] (trimStart (← s))
      some (render value, rest)
    | _ => none

end TypeBridge.Documentation
