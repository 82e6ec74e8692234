import TypeBridge.Text.Blank
import TypeBridge.Text.DigitTable

/-!
# Whole numbers in text

A whole number may stand between blanks, have one sign, and set single underscores between its digits;
the digits may be those of any script. A number has at most `maxDigits` digits.
-/
namespace TypeBridge.Text

/-- The largest count of digits a number may have. -/
def maxDigits : Nat := 4300

/-- The value of a decimal digit of any script. -/
def digitValue? (c : Char) : Option Nat :=
  (digitZeros.find? fun d => d ≤ c.toNat ∧ c.toNat < d + 10).map (c.toNat - ·)

/-- Whether a character may stand around a number: a blank, but not a record separator. -/
def isNumeralBlank (c : Char) : Bool := isBlank c && !(28 ≤ c.toNat && c.toNat ≤ 31)

/-- The values of digits that may have single underscores between them. -/
def digits? : List Char → Option (List Nat)
  | [] => none
  | [c] => (digitValue? c).map ([·])
  | c :: '_' :: r => do return (← digitValue? c) :: (← digits? r)
  | c :: r => do return (← digitValue? c) :: (← digits? r)

/-- The number with the given decimal digits. -/
def ofDigits (ds : List Nat) : Nat := ds.foldl (fun n d => 10 * n + d) 0

/-- The unsigned number that a text denotes. -/
def natural? (s : List Char) : Option Nat := do
  let ds ← digits? s
  if ds.length ≤ maxDigits then some (ofDigits ds) else none

/-- The whole number that a text denotes. -/
def integer? (s : List Char) : Option Int :=
  let core := ((s.dropWhile isNumeralBlank).reverse.dropWhile isNumeralBlank).reverse
  match core with
  | '+' :: r => (natural? r).map Int.ofNat
  | '-' :: r => (natural? r).map fun n => -Int.ofNat n
  | r => (natural? r).map Int.ofNat

end TypeBridge.Text
