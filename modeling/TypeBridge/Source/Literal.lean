/-!
# Literals of text

How far a literal reaches that begins with a quote. A literal is plain, verbatim or raw, and each of these
may be interpolated: it then has holes, which hold code and with it further literals. So the scan keeps
the parts that are open, the innermost one first, and ends when none is left.

* `scan_end`, `exists_step_of_scan`: what a scan does at the end of a text, and with an open part.
* `length?_le`: a literal reaches no further than its text.
-/
namespace TypeBridge.Source.Literal

/-- How a quote is written inside a literal. -/
inductive Escape where
  /-- After a backslash, as other characters are that could not stand there. -/
  | backslash
  /-- Twice. -/
  | doubled
  /-- In no way. -/
  | none
  deriving DecidableEq, Repr

/-- How a literal is written. -/
structure Style where
  quote : Char := '"'
  /-- How many quotes end the literal. -/
  quotes : Nat := 1
  /-- How many braces open a hole, when the literal has holes. -/
  braces : Nat := 0
  escape : Escape
  deriving DecidableEq, Repr

/-- A part of a literal that has begun and not ended. -/
inductive Part where
  /-- The text of a literal. -/
  | text (style : Style)
  /-- The code in a hole that so many braces close. -/
  | hole (braces : Nat)
  /-- The format of the value in a hole that so many braces close. -/
  | format (braces : Nat)
  /-- Code inside brackets, and the bracket that closes it. -/
  | bracket (close : Char)
  deriving DecidableEq, Repr

/-- How many times a text begins with a character. -/
def run (c : Char) (s : List Char) : Nat := (s.takeWhile (· == c)).length

/-- How the literal is written that a text begins with, and the number of characters before the text of
the literal. -/
def opening? : List Char → Option (Style × Nat)
  | '\'' :: _ => some ({ quote := '\'', escape := .backslash }, 1)
  | '@' :: '"' :: _ => some ({ escape := .doubled }, 2)
  | '@' :: '$' :: '"' :: _ => some ({ braces := 1, escape := .doubled }, 3)
  | '$' :: '@' :: '"' :: _ => some ({ braces := 1, escape := .doubled }, 3)
  | s =>
    let braces := run '$' s
    let quotes := run '"' (s.drop braces)
    if 3 ≤ quotes then some ({ quotes := quotes, braces := braces, escape := .none }, braces + quotes)
    else if 1 ≤ quotes ∧ braces ≤ 1 then some ({ braces := braces, escape := .backslash }, braces + 1)
    else none

/-! ## Escapes -/

/-- Whether a character is a hexadecimal digit. -/
def isHexDigit (c : Char) : Bool := c.isDigit || ('a' ≤ c && c ≤ 'f') || ('A' ≤ c && c ≤ 'F')

/-- How many characters after a backslash stand together with it for one character. -/
def escapeLength? : List Char → Option Nat
  | 'x' :: r =>
    let digits := min 4 (r.takeWhile isHexDigit).length
    if digits = 0 then none else some (1 + digits)
  | 'u' :: r => if 4 ≤ (r.takeWhile isHexDigit).length then some 5 else none
  | 'U' :: r => if 8 ≤ (r.takeWhile isHexDigit).length then some 9 else none
  | c :: _ => if "abefnrtv'\"\\?0".toList.contains c then some 1 else none
  | [] => none

/-- The length of the literal of one character that a text begins with. -/
def characterLength? : List Char → Option Nat
  | '\'' :: '\\' :: r =>
    match escapeLength? r with
    | some length => if (r.drop length).head? = some '\'' then some (length + 3) else none
    | none => none
  | '\'' :: c :: '\'' :: _ => if c = '\'' ∨ c = '\n' then none else some 3
  | _ => none

/-! ## Steps -/

/-- The parts that a part continues with, and how many characters belong to the step. -/
abbrev Step := Option (List Part × Nat)

/-- A step in the text of a literal. -/
def Style.step (style : Style) (s : List Char) : Step :=
  let stay (count : Nat) : Step := some ([.text style], count)
  let enter : Step := some ([.hole style.braces, .text style], style.braces)
  if style.quotes ≤ run style.quote s ∧ style.escape ≠ .doubled then some ([], style.quotes)
  else
    match style.escape, s with
    | .backslash, '\\' :: r => (escapeLength? r).bind fun length => stay (length + 1)
    | .backslash, '\n' :: _ => none
    | .doubled, '"' :: '"' :: _ => stay 2
    | .doubled, '"' :: _ => some ([], 1)
    | escape, '{' :: _ =>
      let braces := run '{' s
      if style.braces = 0 ∨ braces < style.braces then stay 1
      else if escape = .none then if style.braces < braces then stay 1 else enter
      else if 2 ≤ braces then stay 2
      else enter
    | _, _ => stay 1

/-- A step in code that belongs to a part. -/
def codeStep (part : Part) (s : List Char) : Step :=
  match opening? s with
  | some (style, count) => some ([.text style, part], count)
  | none =>
    match s with
    | '(' :: _ => some ([.bracket ')', part], 1)
    | '[' :: _ => some ([.bracket ']', part], 1)
    | '{' :: _ => some ([.bracket '}', part], 1)
    | ')' :: _ => none
    | ']' :: _ => none
    | '}' :: _ => none
    | _ => some ([part], 1)

/-- A step in some part. -/
def Part.step (part : Part) (s : List Char) : Step :=
  match part with
  | .text style => style.step s
  | .format braces => if braces ≤ run '}' s then some ([], braces) else some ([part], 1)
  | .bracket close => if s.head? = some close then some ([], 1) else codeStep part s
  | .hole braces =>
    if braces ≤ run '}' s then some ([], braces)
    else
      match s with
      | ':' :: ':' :: _ => some ([part], 2)
      | ':' :: _ => some ([.format braces], 1)
      | _ => codeStep part s

/-! ## Scanning -/

/-- How many characters more belong to the open parts, after `taken` characters that belong to a step
already made. -/
def scan (parts : List Part) (taken : Nat) : List Char → Option Nat
  | [] => if taken = 0 ∧ parts = [] then some 0 else none
  | c :: r =>
    match taken, parts with
    | taken + 1, _ => (scan parts taken r).map (· + 1)
    | 0, [] => some 0
    | 0, part :: others =>
      match part.step (c :: r) with
      | none => none
      | some (continued, count) => (scan (continued ++ others) (count - 1) r).map (· + 1)

/-- The length of the literal that a text begins with; none if the text begins with no literal, or with
one that does not end. -/
def length? (s : List Char) : Option Nat :=
  match opening? s with
  | none => none
  | some (style, count) => scan [.text style] count s

/-- A text is left with nothing only after all parts have ended. -/
theorem scan_end {parts : List Part} {taken n : Nat} (h : scan parts taken [] = some n) :
    taken = 0 ∧ parts = [] ∧ n = 0 := by
  unfold scan at h
  split at h
  · rename_i hend
    exact ⟨hend.1, hend.2, (Option.some.inj h).symm⟩
  · cases h

/-- An open part makes a step, and what it goes on with is scanned. -/
theorem exists_step_of_scan {part : Part} {others : List Part} {c : Char} {r : List Char} {n : Nat}
    (h : scan (part :: others) 0 (c :: r) = some n) : ∃ continued count m,
      part.step (c :: r) = some (continued, count) ∧ scan (continued ++ others) (count - 1) r = some m ∧
      n = m + 1 := by
  unfold scan at h
  dsimp only at h
  split at h
  · cases h
  · rename_i continued count hstep
    obtain ⟨m, hm, rfl⟩ := Option.map_eq_some_iff.1 h
    exact ⟨continued, count, m, hstep, hm, rfl⟩

theorem scan_le {parts : List Part} {taken n : Nat} {s : List Char} (h : scan parts taken s = some n) :
    n ≤ s.length := by
  induction s generalizing parts taken n with
  | nil =>
    obtain ⟨-, -, rfl⟩ := scan_end h
    exact Nat.zero_le _
  | cons c r ih =>
    match taken, parts with
    | taken + 1, _ =>
      obtain ⟨m, hm, rfl⟩ := Option.map_eq_some_iff.1 h
      exact Nat.succ_le_succ (ih hm)
    | 0, [] =>
      obtain rfl := Option.some.inj h
      exact Nat.zero_le _
    | 0, part :: others =>
      obtain ⟨_, _, m, -, hm, rfl⟩ := exists_step_of_scan h
      exact Nat.succ_le_succ (ih hm)

theorem length?_le {s : List Char} {n : Nat} (h : length? s = some n) : n ≤ s.length := by
  unfold length? at h
  split at h
  · cases h
  · exact scan_le h

end TypeBridge.Source.Literal
