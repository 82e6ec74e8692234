import TypeBridge.Documentation.Block

/-!
# Comments in declaration files
-/
namespace TypeBridge.Output

/-- A comment with the given lines, each behind a star. Mirrors `render_comment_block`. -/
def comment (indent : String) (lines : List String) : List String :=
  (indent ++ "/**") ::
    lines.map (fun line => if line.isEmpty then indent ++ " *" else indent ++ " * " ++ line) ++
    [indent ++ " */"]

/-- The lines of what comments in a source say about a declaration. -/
def documentation (options : Options) (comments : List String) : List String :=
  match Documentation.ofComments? options comments with
  | some block => block.lines
  | none => []

/-- A comment with the given lines, or nothing when there are none. -/
def commentUnlessEmpty (indent : String) (lines : List String) : List String :=
  if lines.isEmpty then [] else comment indent lines

end TypeBridge.Output
