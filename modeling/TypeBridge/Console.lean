/-!
# Console

What a program has written: its answers on one stream, and its complaints on another one.

Limitations: the streams take every character, whatever encoding a terminal has.
-/
namespace TypeBridge

/-- The text of the two streams that a program writes. -/
structure Console where
  answers : String := ""
  complaints : String := ""
  deriving DecidableEq, Repr

namespace Console

/-- Writes a line to the stream of answers. -/
def say (console : Console) (line : String) : Console :=
  { console with answers := console.answers ++ line ++ "\n" }

/-- Writes a line to the stream of complaints. -/
def complain (console : Console) (line : String) : Console :=
  { console with complaints := console.complaints ++ line ++ "\n" }

/-- Writes some lines to the stream of complaints. -/
def complainAll (console : Console) (lines : List String) : Console := lines.foldl complain console

end Console

end TypeBridge
