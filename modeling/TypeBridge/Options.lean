import TypeBridge.Table

/-!
# Options

Everything about the translation that can be chosen, with the usual choice as the default of each field.
-/
namespace TypeBridge

/-- How a generic type is written: its parameters, and a text in which each parameter's name in braces
stands for the argument. -/
structure Template where
  parameters : List String
  text : String
  deriving DecidableEq, Repr

namespace Options

/-- The names of numbers. Mirrors `NUMBER_TYPE_NAMES`. -/
def numberNames : List String := [
    "byte", "sbyte", "short", "ushort", "int", "uint", "long", "ulong", "nint", "nuint", "float",
    "double", "decimal", "Byte", "SByte", "Int16", "UInt16", "Int32", "UInt32", "Int64", "UInt64",
    "IntPtr", "UIntPtr", "Half", "Single", "Double", "Decimal", "BigInteger"]

/-- The names of types that are transmitted as text. Mirrors `STRING_LIKE_TYPE_NAMES`. -/
def stringNames : List String := [
    "string", "char", "String", "Char", "DateTime", "DateTimeOffset", "DateOnly", "TimeOnly",
    "TimeSpan", "Guid", "Uri", "Version"]

/-- The usual translation of the types that have a name of their own. Mirrors `default_scalar_type_map`. -/
def defaultScalars : Table String :=
  numberNames.map (·, "number") ++ stringNames.map (·, "string") ++
    [("bool", "boolean"), ("Boolean", "boolean"), ("object", "any"), ("Object", "any"),
      ("dynamic", "any"), ("void", "void"), ("Void", "void")]

end Options

/-- What can be chosen about a translation. Mirrors `GeneratorConfig`. -/
structure Options where
  /-- The translation of types that are single names. -/
  scalars : Table String := Options.defaultScalars
  /-- Generic types that are written by a template; a template goes before every other rule. -/
  templates : Table Template := []
  /-- Generic types whose one argument is the type of their elements, in order. -/
  orderedCollections : List String := [
    "List", "IList", "ICollection", "IEnumerable", "IReadOnlyList", "IReadOnlyCollection",
    "Collection", "HashSet", "ISet", "IReadOnlySet", "SortedSet", "Stack", "Queue", "LinkedList",
    "ConcurrentBag", "ConcurrentQueue", "ConcurrentStack", "ReadOnlyCollection", "ImmutableArray",
    "ImmutableList"]
  /-- Generic types whose two arguments are the types of their keys and values. -/
  keyedCollections : List String := [
    "Dictionary", "IDictionary", "ConcurrentDictionary", "ReadOnlyDictionary",
    "IReadOnlyDictionary", "SortedDictionary", "ImmutableDictionary"]
  /-- Generic types whose arguments are the elements of a tuple. -/
  tupleGenerics : List String := ["Tuple", "ValueTuple"]
  /-- Generic types whose one argument is made optional. -/
  nullableWrappers : List String := ["Nullable"]
  /-- Types whose results arrive later. -/
  asyncResults : List String := ["Task", "ValueTask"]
  /-- Generic types that keep their names; each is declared once, for the whole file. -/
  passthroughGenerics : List String := ["DbSet"]
  /-- Names whose presence at the outermost place of a qualifier makes it irrelevant. -/
  baseNamespaces : List String := ["System"]
  /-- Where declarations outside of every namespace are put. -/
  defaultNamespace : String := "Global"
  /-- What is appended to the name of an enumeration to name its numeric form. -/
  enumSuffix : String := "Enum"
  /-- The line that introduces remarks. -/
  remarksIntroduction : String := "Remarks:"
  /-- The language that code samples are marked with. -/
  codeSampleLanguage : String := "csharp"
  /-- Attributes that make a property optional. -/
  allowAbsentAttributes : List String := ["AllowNull", "AllowNullAttribute"]
  /-- Attributes that mark a property as deprecated. -/
  obsoleteAttributes : List String := ["Obsolete", "ObsoleteAttribute"]
  /-- Directories whose files are not read. -/
  excludedDirectories : List String := ["bin", "obj"]
  /-- The indentation of one level. -/
  indentUnit : String := "  "
  /-- The lines at the beginning of a declaration file. -/
  bannerLines : List String := [
    "// typedefs.d.ts (AUTOGENERATED by cststypegen)",
    "// Do not edit by hand; regenerate from the C# sources instead."]

end TypeBridge
