import TypeBridge.Options
import TypeBridge.Text.Line
import TypeBridge.Text.Quoted
import TypeBridge.Text.Utf8

/-!
# Type maps

A type map says how further types are written. Each of its lines is blank, a comment that begins with
`#`, or an entry: the name of a type, a colon and the text to write. A name that parameters in angle
brackets follow is that of a generic type, and the text of its entry is a template. Of several entries
for one name the last one counts, separately for names with and without parameters.
-/
namespace TypeBridge

/-- The entries of a type map. Mirrors the result of `load_type_mapping`. -/
structure TypeMap where
  scalars : Table String := []
  templates : Table Template := []
  deriving DecidableEq, Repr

namespace TypeMap

/-- What is wrong with a line of a type map. -/
inductive EntryFault where
  /-- There is no colon, or nothing after it. -/
  | noEntry
  /-- What stands before the colon does not name a type. -/
  | badName (key : String)
  /-- One of the parameters is missing. -/
  | emptyParameter (key : String)
  deriving DecidableEq, Repr

/-- Why a type map cannot be used. -/
inductive Fault where
  | missing
  | encoding (fault : Text.Utf8Fault)
  | entry (line : Nat) (fault : EntryFault)
  deriving DecidableEq, Repr

/-! ## Entries -/

/-- Whether the name of a type may begin with this character. -/
def isNameStart (c : Char) : Bool := c.isAlpha || c == '_'

/-- Whether the name of a type may go on with this character. -/
def isNameChar (c : Char) : Bool := c.isAlphanum || c == '_' || c == '.'

/-- The text between angle brackets that hold no others. -/
def bracketed? (s : List Char) : Option (List Char) :=
  match s with
  | '<' :: r =>
    match r.reverse with
    | '>' :: inner => if inner.any (fun c => c == '<' || c == '>') then none else some inner.reverse
    | _ => none
  | _ => none

/-- The name before the colon of an entry, and the text between its brackets when it has some.
Mirrors `TYPE_MAP_KEY_REGEX`. -/
def splitKey? (key : List Char) : Option (List Char × Option (List Char)) :=
  match key with
  | [] => none
  | c :: r =>
    if isNameStart c then
      let name := c :: r.takeWhile isNameChar
      match Text.trimStart (r.dropWhile isNameChar) with
      | [] => some (name, none)
      | rest => (bracketed? rest).map fun inner => (name, some inner)
    else none

/-- A type map with one more entry.
Mirrors `parse_type_mapping_key` and the two tables of `load_type_mapping`. -/
def addEntry (map : TypeMap) (key value : List Char) : Except EntryFault TypeMap :=
  match splitKey? key with
  | none => .error (.badName (.ofList key))
  | some (name, none) => .ok { map with scalars := map.scalars.insert (.ofList name) (.ofList value) }
  | some (name, some inner) =>
    let parameters := (Text.splitOn (· == ',') inner).map Text.trim
    if parameters.any (·.isEmpty) then .error (.emptyParameter (.ofList key))
    else
      let template := { parameters := parameters.map .ofList, text := .ofList value }
      .ok { map with templates := map.templates.insert (.ofList name) template }

/-- A type map with the entry of one more line, if the line has one.
Mirrors the body of the loop of `load_type_mapping`. -/
def addLine (map : TypeMap) (line : List Char) : Except EntryFault TypeMap :=
  match Text.trim line with
  | [] => .ok map
  | '#' :: _ => .ok map
  | content =>
    match Text.splitFirst ':' content with
    | (key, some value) =>
      match Text.trim value with
      | [] => .error .noEntry
      | value => map.addEntry (Text.trim key) value
    | (_, none) => .error .noEntry

/-- A type map with the entries of all lines, the first of which has the given number.
Mirrors the loop of `load_type_mapping`. -/
def addLines (map : TypeMap) (number : Nat) : List (List Char) → Except Fault TypeMap
  | [] => .ok map
  | line :: rest =>
    match map.addLine line with
    | .error fault => .error (.entry number fault)
    | .ok map => addLines map (number + 1) rest

/-- The type map that a text describes. -/
def ofText (s : List Char) : Except Fault TypeMap := addLines {} 1 (Text.lines s)

/-- The type map that the bytes of a file describe; there may be no file. Mirrors `load_type_mapping`. -/
def ofFile : Option (List UInt8) → Except Fault TypeMap
  | none => .error .missing
  | some bytes =>
    match Text.decodeUtf8 bytes with
    | .error fault => .error (.encoding fault)
    | .ok s => ofText s

/-! ## Use -/

/-- The usual options with the entries of a type map. Mirrors `build_config`. -/
def options (map : TypeMap) : Options :=
  { scalars := Options.defaultScalars.update map.scalars, templates := map.templates }

/-! ## Messages -/

/-- What is wrong with a line. -/
def EntryFault.message : EntryFault → String
  | .noEntry => "expected 'CSharpType: typescriptType'"
  | .badName key => "invalid C# type name " ++ Text.quoted key
  | .emptyParameter key => "empty type parameter in " ++ Text.quoted key

/-- What is wrong with the type map at the given path. -/
def Fault.message (path : String) : Fault → String
  | .missing => "type map not found: " ++ path
  | .encoding fault => fault.message
  | .entry line fault => path ++ ":" ++ toString line ++ ": " ++ fault.message

end TypeMap

end TypeBridge
