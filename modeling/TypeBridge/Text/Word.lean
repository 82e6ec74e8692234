import TypeBridge.Text.AlphanumericTable

/-!
# Words

The characters that words are made of: letters and digits of any script, and the low line.
-/
namespace TypeBridge.Text

/-- Whether a character can be part of a word. -/
def isWordChar (c : Char) : Bool :=
  if c.toNat < 0x80 then c.isAlphanum || c == '_' else inRanges alphanumericRanges c.toNat

/-- Whether a text begins with a character of a word. -/
def beginsWithWordChar : List Char → Bool
  | [] => false
  | c :: _ => isWordChar c

end TypeBridge.Text
