import TypeBridge.Text.Blank

/-!
# Substitution

A text is searched from left to right for parts that are to be replaced. What to look for is given by a
function that says, for the text from some place on, what to put there and how the text goes on after
the part that it replaces; the search continues there, so parts do not overlap, and what was put in is
not searched.

* `substitute_eq_self`: a text in which nothing is found stays as it is.
-/
namespace TypeBridge.Text

/-- What a text begins with: what to put in its place, and the text after it. -/
abbrev Finder := List Char → Option (List Char × List Char)

/-- The text with what `find` finds replaced, after `taken` characters that belong to a part already
replaced. -/
def substituteFrom (find : Finder) : (taken : Nat) → List Char → List Char
  | _, [] => []
  | taken + 1, _ :: r => substituteFrom find taken r
  | 0, c :: r =>
    match find (c :: r) with
    | some (text, rest) => text ++ substituteFrom find (r.length - rest.length) r
    | none => c :: substituteFrom find 0 r

/-- The text with what `find` finds replaced. -/
def substitute (find : Finder) (s : List Char) : List Char := substituteFrom find 0 s

theorem substitute_eq_self {find : Finder} {s : List Char}
    (h : ∀ t, t <:+ s → find t = none) : substitute find s = s := by
  unfold substitute
  induction s with
  | nil => rfl
  | cons c r ih =>
    rw [substituteFrom, h _ (List.suffix_refl _)]
    exact congrArg _ (ih fun t ht => h t (ht.trans (List.suffix_cons c r)))

/-- Finds a pattern that is not empty. -/
def findPattern (pattern replacement : List Char) : Finder := fun s =>
  (dropStart? pattern s).map (replacement, ·)

/-- The text with every occurrence of a pattern that is not empty replaced. -/
def replace (pattern replacement s : List Char) : List Char :=
  substitute (findPattern pattern replacement) s

end TypeBridge.Text
