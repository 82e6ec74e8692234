import TypeBridge.Source.Lexeme

/-!
# Tokens

A token of a source, with all that stands between it and the token before: blanks, comments and directives.
Nothing of the source is lost but what follows the last token.
-/
namespace TypeBridge.Source

/-- A piece of a source that the grammar does not see. A comment is on a line of its own when, up to the
beginning of the source, the piece or the token before it, there is a line feed, or nothing at all. -/
inductive Trivia where
  | blank (text : String)
  | comment (text : String) (ownLine : Bool)
  | directive (text : String)
  deriving DecidableEq, Repr

/-- How a piece is written. -/
def Trivia.text : Trivia → String
  | .blank text => text
  | .comment text _ => text
  | .directive text => text

/-- Whether a piece is a directive. -/
def Trivia.isDirective : Trivia → Bool
  | .directive _ => true
  | _ => false

/-- A token, and what stands before it. -/
structure Token where
  lead : List Trivia
  kind : Token.Kind
  text : String
  deriving DecidableEq, Repr

namespace Token

/-- What stands before a token, as it is written. -/
def before (token : Token) : String := String.join (token.lead.map Trivia.text)

/-- A token and what stands before it, as they are written. -/
def written (token : Token) : String := token.before ++ token.text

/-! ## From lexemes -/

/-- A piece that the grammar does not see; `ownLine` says whether nothing but line feeds and blanks
precedes it. -/
def trivia (kind : Trivia.Kind) (ownLine : Bool) (text : String) : Trivia :=
  match kind with
  | .blank => .blank text
  | .comment => .comment text ownLine
  | .directive => .directive text

/-- The tokens of lexemes that follow the pieces in `lead`, the last of which comes first. -/
def ofLexemes (lead : List Trivia) (ownLine : Bool) : List Lexeme → List Token
  | [] => []
  | lexeme :: rest =>
    let text := String.ofList lexeme.text
    match lexeme.kind with
    | .token kind => ⟨lead.reverse, kind, text⟩ :: ofLexemes [] false rest
    | .trivia kind =>
      let after := kind == .blank && (ownLine || lexeme.text.contains '\n')
      ofLexemes (trivia kind ownLine text :: lead) after rest

/-- The tokens of a source; none if some part of it is no lexeme. -/
def ofSource? (source : List Char) : Option (List Token) :=
  (Lexeme.ofSource? source).map (ofLexemes [] true)

/-! ## Comments -/

/-- The comments after the last directive before a token, but the first of them only if it is on a line of
its own.
Mirrors `collect_leading_comments`. -/
def leadingComments (lead : List Trivia) : List String :=
  let run := (lead.reverse.takeWhile (!·.isDirective)).reverse.filterMap fun
    | .comment text ownLine => some (text, ownLine)
    | _ => none
  let run :=
    match run with
    | (_, false) :: rest => rest
    | run => run
  run.map fun (text, _) => .ofList (Text.trim text.toList)

end Token

end TypeBridge.Source
