import TypeBridge.CommandLine.SettingsFile
import TypeBridge.Files.System
import TypeBridge.Text.Lowercase
import TypeBridge.Text.Utf8

/-!
# Settings

What the environment and a settings file in the working directory say. Names are compared without regard
to case, and the environment goes before the file.
-/
namespace TypeBridge.CommandLine

/-- What can be set besides the arguments. Mirrors `Settings`. -/
structure Settings where
  sourceDirectory : Option String := none
  definitionsPath : Option String := none
  generateDefinitions : Option String := none
  typeMapPath : Option String := none
  deriving DecidableEq, Repr

namespace Settings

/-- The path of the settings file. -/
def path : Path := ⟨"", [".env"]⟩

/-- A name in lower case. -/
def lowerName (name : String) : String := .ofList (Text.lower name.toList)

/-- The values of a list by names in lower case; of several for one name the last one counts. -/
def byLowerName {α : Type} (values : List (String × α)) : Table α :=
  values.foldl (fun table (name, value) => table.insert (lowerName name) value) []

/-- The value of a setting. -/
def value? (environment : List (String × String)) (file : Table (Option (List Char))) (name : String) :
    Option String :=
  match (byLowerName environment).get? (lowerName name) with
  | some value => some value
  | none => (((byLowerName file).get? (lowerName name)).getD none).map .ofList

/-- The settings from the values of names. -/
def ofValues (environment : List (String × String)) (file : Table (Option (List Char))) : Settings :=
  { sourceDirectory := value? environment file "CsTsTypeGen_SourceDirectory"
    definitionsPath := value? environment file "CsTsTypeGen_DefinitionsPath"
    generateDefinitions := value? environment file "CsTsTypeGen_GenerateDefinitions"
    typeMapPath := value? environment file "CsTsTypeGen_TypeMapPath" }

/-- The settings from the environment and from what the settings file says. -/
def ofContent (environment : List (String × String)) (content : SettingsFile.Content) : Settings :=
  ofValues environment (SettingsFile.resolveValues environment content.values)

/-- What the settings file says, when there is one. -/
def content (system : FileSystem) : Except Text.Utf8Fault SettingsFile.Content :=
  match system.file? path with
  | none => .ok {}
  | some bytes =>
    match Text.decodeUtf8 bytes with
    | .error fault => .error fault
    | .ok s => .ok (SettingsFile.read s)

/-- The line that warns of a statement that breaks the rules. -/
def warning (line : Nat) : String :=
  "python-dotenv could not parse statement starting at line " ++ toString line

/-- Whether definitions are to be generated at all. Mirrors `generation_enabled`. -/
def isEnabled (settings : Settings) : Bool :=
  match settings.generateDefinitions with
  | none => true
  | some value => Text.lower (Text.trim value.toList) != "false".toList

end Settings

end TypeBridge.CommandLine
