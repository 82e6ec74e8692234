import TypeBridge.Text.CharacterReferenceTable
import TypeBridge.Text.Substitute

/-!
# Character references

A reference is written `&name;`, `&#decimal;` or `&#xhex;`. The semicolon may be missing after a number
and after some of the names; of the names that a text begins with, the longest one counts. Numbers
follow the rules of HTML: some stand for characters of an old code page, surrogates and numbers beyond
the last code point give the replacement character, and other numbers without a character give nothing.
-/
namespace TypeBridge.Text

/-! ## Numeric references -/

/-- The numbers that do not stand for the code point of the same number. -/
def remappedReferences : List (Nat × Nat) := [
    (0x00, 0xFFFD), (0x0D, 0x0D), (0x80, 0x20AC), (0x81, 0x81), (0x82, 0x201A), (0x83, 0x0192),
    (0x84, 0x201E), (0x85, 0x2026), (0x86, 0x2020), (0x87, 0x2021), (0x88, 0x02C6), (0x89, 0x2030),
    (0x8A, 0x0160), (0x8B, 0x2039), (0x8C, 0x0152), (0x8D, 0x8D), (0x8E, 0x017D), (0x8F, 0x8F),
    (0x90, 0x90), (0x91, 0x2018), (0x92, 0x2019), (0x93, 0x201C), (0x94, 0x201D), (0x95, 0x2022),
    (0x96, 0x2013), (0x97, 0x2014), (0x98, 0x02DC), (0x99, 0x2122), (0x9A, 0x0161), (0x9B, 0x203A),
    (0x9C, 0x0153), (0x9D, 0x9D), (0x9E, 0x017E), (0x9F, 0x0178)]

/-- Whether a number has no character: controls that text may not hold, and the noncharacters. -/
def isVoidReference (n : Nat) : Bool :=
  (0x1 ≤ n && n ≤ 0x8) || n == 0xB || (0xE ≤ n && n ≤ 0x1F) || (0x7F ≤ n && n ≤ 0x9F) ||
    (0xFDD0 ≤ n && n ≤ 0xFDEF) || n % 0x10000 == 0xFFFE || n % 0x10000 == 0xFFFF

/-- What a numeric reference stands for. -/
def numericReference (n : Nat) : List Char :=
  match remappedReferences.lookup n with
  | some code => [Char.ofNat code]
  | none =>
    if (0xD800 ≤ n ∧ n ≤ 0xDFFF) ∨ 0x10FFFF < n then [Char.ofNat 0xFFFD]
    else if isVoidReference n then []
    else [Char.ofNat n]

/-- The value of an ASCII digit in a base of at most sixteen. -/
def asciiDigit? (base : Nat) (c : Char) : Option Nat :=
  let n := c.toNat
  let value :=
    if 48 ≤ n ∧ n ≤ 57 then n - 48
    else if 97 ≤ n ∧ n ≤ 102 then n - 87
    else if 65 ≤ n ∧ n ≤ 70 then n - 55
    else 16
  if value < base then some value else none

/-- The number that the digits at the beginning of a text denote, when there are any, and the text
after them and after one semicolon. -/
def scanNumber (base : Nat) (s : List Char) : Option (Nat × List Char) :=
  let digits := s.takeWhile fun c => (asciiDigit? base c).isSome
  if digits.isEmpty then none
  else
    let rest := s.dropWhile fun c => (asciiDigit? base c).isSome
    some (digits.foldl (fun n c => base * n + (asciiDigit? base c).getD 0) 0,
      match rest with
      | ';' :: rest => rest
      | rest => rest)

/-! ## Named references -/

/-- Whether a character may stand in the name of a reference. -/
def isReferenceChar (c : Char) : Bool :=
  !(c == '\t' || c == '\n' || c == '\x0c' || c == ' ' || c == '<' || c == '&' || c == '#' || c == ';')

/-- The longest name of a reference, without the semicolon. -/
def maxReferenceName : Nat := 32

/-- The characters at the beginning of a text that may form a name. -/
def referenceName (s : List Char) : List Char := (s.takeWhile isReferenceChar).take maxReferenceName

/-- What a complete name stands for; without a semicolon only some names are understood. -/
def namedReference? (name : List Char) (closed : Bool) : Option (List Char) :=
  match name with
  | [] => none
  | c :: _ =>
    (namedReferences c).findSome? fun (known, text, open_) =>
      if known.toList = name ∧ (closed ∨ open_ = true) then some text.toList else none

/-- What the longest name of at least two and at most `n` characters at the beginning of `name` stands
for, with the characters after it. -/
def longestReference? (name : List Char) : Nat → Option (List Char × List Char)
  | 0 | 1 => none
  | n + 2 =>
    match namedReference? (name.take (n + 2)) false with
    | some text => some (text, name.drop (n + 2))
    | none => longestReference? name (n + 1)

/-- The text of the reference at the beginning of the text after an ampersand, and what follows. A name
that is not known stays as it is, with its ampersand. -/
def scanReference (s : List Char) : Option (List Char × List Char) :=
  match s with
  | '#' :: 'x' :: r | '#' :: 'X' :: r =>
    (scanNumber 16 r).map fun (n, rest) => (numericReference n, rest)
  | '#' :: r => (scanNumber 10 r).map fun (n, rest) => (numericReference n, rest)
  | _ =>
    let name := referenceName s
    let rest := s.drop name.length
    if name.isEmpty then none
    else
      match rest with
      | ';' :: rest =>
        match namedReference? name true with
        | some text => some (text, rest)
        | none =>
          match longestReference? name name.length with
          | some (text, after) => some (text ++ after ++ [';'], rest)
          | none => some ('&' :: name ++ [';'], rest)
      | rest =>
        match longestReference? name name.length with
        | some (text, after) => some (text ++ after, rest)
        | none => some ('&' :: name, rest)

/-- Finds references. -/
def findReference : Finder
  | '&' :: r => scanReference r
  | _ => none

/-- A text with every character reference resolved, from left to right and once. -/
def resolveReferences (s : List Char) : List Char := substitute findReference s

/-- A text without an ampersand holds no reference. -/
theorem resolveReferences_eq_self {s : List Char} (h : '&' ∉ s) : resolveReferences s = s := by
  refine substitute_eq_self fun t ht => ?_
  match t, ht with
  | [], _ => rfl
  | c :: r, ht =>
    have hc : c ≠ '&' := fun e => h (e ▸ ht.subset List.mem_cons_self)
    simp [findReference, hc]

end TypeBridge.Text
