import TypeBridge.Text.LowercaseTable

/-!
# Lower case

The lower case of a character is one character, save for the capital I with a dot above, which becomes
an i and a combining dot.
-/
namespace TypeBridge.Text

/-- Where the lower case of a code point lies, if the run covers it. -/
def CaseRun.lower? (run : CaseRun) (n : Nat) : Option Nat :=
  if run.first ≤ n ∧ n ≤ run.last ∧ (n - run.first) % run.step = 0 then
    some (n + run.shift).toNat
  else none

/-- The lower case of one character. -/
def lowerChar (c : Char) : List Char :=
  if c.toNat = 0x130 then ['i', Char.ofNat 0x307]
  else
    match caseRuns.findSome? (·.lower? c.toNat) with
    | some n => [Char.ofNat n]
    | none => [c]

/-- A text with every character in lower case. -/
def lower (s : List Char) : List Char := s.flatMap lowerChar

/-- A text with its first character in lower case. -/
def lowerFirst : List Char → List Char
  | [] => []
  | c :: r => lowerChar c ++ r

end TypeBridge.Text
