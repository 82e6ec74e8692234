import TypeBridge.Text.Quoted
import TypeBridge.Text.Blank

/-!
# Tokens of type expressions

A type expression is written with ASCII names, the alias mark `::` and nine punctuation characters,
with blanks anywhere between them. A name may be preceded by `@`, which is not part of it.

* `not_isBlank_of_isNameChar`: no character of a name is blank.
* `scan_eq_drop`: what belongs to a token already read is passed over.
* `scan_error_lt`: the offset that a fault reports lies inside the text.
-/
namespace TypeBridge.TypeExpr

/-- A token of a type expression. -/
inductive Token where
  | name (text : String)
  | alias
  | dot
  | less
  | greater
  | comma
  | openParen
  | closeParen
  | openBracket
  | closeBracket
  | question
  deriving DecidableEq, Repr

/-- How a token is written; a name is written without `@`. -/
def Token.text : Token → String
  | .name text => text
  | .alias => "::"
  | .dot => "."
  | .less => "<"
  | .greater => ">"
  | .comma => ","
  | .openParen => "("
  | .closeParen => ")"
  | .openBracket => "["
  | .closeBracket => "]"
  | .question => "?"

/-- Whether a name may begin with this character. -/
def isNameStart (c : Char) : Bool := c.isAlpha || c == '_'

/-- Whether a name may go on with this character. -/
def isNameChar (c : Char) : Bool := c.isAlphanum || c == '_'

theorem isNameChar_of_isNameStart {c : Char} (h : isNameStart c = true) : isNameChar c = true := by
  simp only [isNameStart, isNameChar, Char.isAlphanum, Bool.or_eq_true] at h ⊢
  exact h.imp_left .inl

theorem not_isBlank_of_isNameChar {c : Char} (h : isNameChar c = true) : Text.isBlank c = false := by
  simp only [isNameChar, Bool.or_eq_true, beq_iff_eq] at h
  rcases h with h | rfl
  · exact Text.not_isBlank_of_isAlphanum h
  · rfl

/-- The punctuation mark that a character is. -/
def mark? : Char → Option Token
  | '.' => some .dot
  | '<' => some .less
  | '>' => some .greater
  | ',' => some .comma
  | '(' => some .openParen
  | ')' => some .closeParen
  | '[' => some .openBracket
  | ']' => some .closeBracket
  | '?' => some .question
  | _ => none

/-- The token at the beginning of a text, and how many characters after the first belong to it.
Mirrors `TOKEN_REGEX`, apart from its blanks. -/
def tokenAt? : List Char → Option (Token × Nat)
  | '@' :: c :: r =>
    if isNameStart c then
      let more := r.takeWhile isNameChar
      some (.name (.ofList (c :: more)), more.length + 1)
    else none
  | ':' :: ':' :: _ => some (.alias, 1)
  | c :: r =>
    if isNameStart c then
      let more := r.takeWhile isNameChar
      some (.name (.ofList (c :: more)), more.length)
    else (mark? c).map (·, 0)
  | [] => none

/-- A character that begins no token, and its offset. -/
structure BadCharacter where
  char : Char
  offset : Nat
  deriving DecidableEq, Repr

/-- The tokens of a text that begins at `offset`, after `taken` characters that belong to a token
already read. -/
def scan : (taken offset : Nat) → List Char → Except BadCharacter (List Token)
  | _, _, [] => .ok []
  | taken + 1, offset, _ :: r => scan taken (offset + 1) r
  | 0, offset, c :: r =>
    if Text.isBlank c then scan 0 (offset + 1) r
    else
      match tokenAt? (c :: r) with
      | none => .error ⟨c, offset⟩
      | some (token, taken) =>
        match scan taken (offset + 1) r with
        | .error fault => .error fault
        | .ok tokens => .ok (token :: tokens)

/-- The tokens of a type expression. Mirrors `tokenize_type_expression`. -/
def tokens (text : String) : Except BadCharacter (List Token) := scan 0 0 text.toList

theorem scan_eq_drop (taken offset : Nat) (s : List Char) :
    scan taken offset s = scan 0 (offset + taken) (s.drop taken) := by
  induction s generalizing taken offset with
  | nil =>
    rw [List.drop_nil]
    cases taken <;> rfl
  | cons c s ih =>
    cases taken with
    | zero => rfl
    | succ taken => rw [scan, ih, List.drop_succ_cons, Nat.add_right_comm, Nat.add_assoc]

theorem scan_error_lt {taken offset : Nat} {s : List Char} {fault : BadCharacter}
    (h : scan taken offset s = .error fault) :
    offset ≤ fault.offset ∧ fault.offset < offset + s.length := by
  fun_induction scan taken offset s with
  | case1 => simp at h
  | case2 offset taken c r ih => have := ih h; simp only [List.length_cons]; omega
  | case3 offset c r _ ih => have := ih h; simp only [List.length_cons]; omega
  | case4 => simp only [Except.error.injEq] at h; subst h; simp
  | case5 offset c r _ token taken _ fault' hr ih =>
    simp only [Except.error.injEq] at h
    subst h
    have := ih hr
    simp only [List.length_cons]
    omega
  | case6 => simp at h

end TypeBridge.TypeExpr
