import TypeBridge.Source.Token

/-!
# Trees

The tokens of a source with what is between brackets made into groups, and what is between the directives
of a condition into branches. Angle brackets make no groups, since they may also compare.
-/
namespace TypeBridge.Source

/-- The brackets that make groups. -/
inductive Bracket where
  | round
  | square
  | curly
  deriving DecidableEq, Repr

/-- A token, or tokens that belong together. -/
inductive Tree where
  | leaf (token : Token)
  | group (bracket : Bracket) (opening : Token) (body : List Tree) (closing : Token)
  /-- The branches of a condition, each with the directive before it, and the directive that ends the
  last one. -/
  | conditional (branches : List (Token × List Tree)) (closing : Token)
  deriving Repr

namespace Tree

/-! ## Text -/

/-- The first token of a tree. -/
def first : Tree → Token
  | .leaf token => token
  | .group _ opening _ _ => opening
  | .conditional ((opening, _) :: _) _ => opening
  | .conditional [] closing => closing

mutual
/-- The tokens of a tree, in order. -/
def tokens : Tree → List Token
  | .leaf token => [token]
  | .group _ opening body closing => opening :: tokensAll body ++ [closing]
  | .conditional branches closing => tokensBranches branches ++ [closing]

/-- The tokens of some trees, in order. -/
def tokensAll : List Tree → List Token
  | [] => []
  | tree :: trees => tokens tree ++ tokensAll trees

/-- The tokens of some branches, in order. -/
def tokensBranches : List (Token × List Tree) → List Token
  | [] => []
  | (opening, body) :: branches => opening :: tokensAll body ++ tokensBranches branches
end

/-- The number of tokens in some trees. -/
def size (trees : List Tree) : Nat := (tokensAll trees).length

/-- The text of some trees, without what stands before them. -/
def textOf (trees : List Tree) : String :=
  match tokensAll trees with
  | [] => ""
  | token :: rest => token.text ++ String.join (rest.map Token.written)

/-! ## Building -/

/-- What a token does to the structure. -/
inductive Role where
  | opens (bracket : Bracket)
  | closes (bracket : Bracket)
  | branch (mark : BranchMark)
  | stands
  deriving DecidableEq, Repr

/-- What a token does to the structure. -/
def role (token : Token) : Role :=
  match token.kind, token.text with
  | .branch mark, _ => .branch mark
  | .mark, "(" => .opens .round
  | .mark, "[" => .opens .square
  | .mark, "\x7b" => .opens .curly
  | .mark, ")" => .closes .round
  | .mark, "]" => .closes .square
  | .mark, "\x7d" => .closes .curly
  | _, _ => .stands

/-- Something that has begun and not ended, with the trees before it, the last of which comes first. -/
inductive Frame where
  | group (before : List Tree) (bracket : Bracket) (opening : Token)
  /-- The branches that have ended, the last of which comes first, and the directive of the current one. -/
  | conditional (before : List Tree) (ended : List (Token × List Tree)) (opening : Token)

/-- The trees of some tokens that follow the trees in `done`, the last of which comes first, inside the
frames of a stack, the innermost of which comes first. -/
def build (stack : List Frame) (done : List Tree) : List Token → Option (List Tree)
  | [] => if stack.isEmpty then some done.reverse else none
  | token :: rest =>
    match role token, stack with
    | .stands, _ => build stack (.leaf token :: done) rest
    | .opens bracket, _ => build (.group done bracket token :: stack) [] rest
    | .closes bracket, .group before opened opening :: stack =>
      if bracket = opened then
        build stack (.group opened opening done.reverse token :: before) rest
      else none
    | .branch .ifBranch, _ => build (.conditional done [] token :: stack) [] rest
    | .branch .endBranch, .conditional before ended opening :: stack =>
      build stack (.conditional ((opening, done.reverse) :: ended).reverse token :: before) rest
    | .branch _, .conditional before ended opening :: stack =>
      if opening.kind = .branch .elseBranch then none
      else build (.conditional before ((opening, done.reverse) :: ended) token :: stack) [] rest
    | _, _ => none

/-- The trees of some tokens; none if their brackets do not match. -/
def ofTokens? (tokens : List Token) : Option (List Tree) := build [] [] tokens

/-- The trees of a source; none if it has none. -/
def ofSource? (source : List Char) : Option (List Tree) := (Token.ofSource? source).bind ofTokens?

end Tree

end TypeBridge.Source
