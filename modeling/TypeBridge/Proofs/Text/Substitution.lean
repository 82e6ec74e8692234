import TypeBridge.Text.Substitute
import Mathlib.Data.List.Infix

/-!
# Substitution

What is found at the beginning of a text is replaced, and the search goes on after it. So a text is replaced piece
by piece when nothing that is found runs from one piece into the next.

Results:
* `substitute_of_find`, `substitute_cons`, `substitute_append`: one step of the search, and a text without a find.
* `substitute_induction`, `substitute_subset`: the search step by step.
* `StaysIn.substitute_append`: a text that is searched in two pieces.
* `replace_pattern`, `replace_append`: the same for a pattern.
-/
namespace TypeBridge.Text

variable {find : Finder}

theorem substituteFrom_length_append (find : Finder) (taken r : List Char) :
    substituteFrom find taken.length (taken ++ r) = substitute find r := by
  induction taken with
  | nil => rfl
  | cons c taken ih => exact ih

/-- What is found at the beginning of a text is replaced. -/
theorem substitute_of_find {part text rest : List Char} (hne : part ≠ [])
    (h : find (part ++ rest) = some (text, rest)) :
    substitute find (part ++ rest) = text ++ substitute find rest := by
  obtain ⟨c, part, rfl⟩ := List.exists_cons_of_ne_nil hne
  rw [List.cons_append] at h ⊢
  have hlength : (part ++ rest).length - rest.length = part.length := by
    rw [List.length_append]
    omega
  rw [substitute, substituteFrom, h]
  simp only
  rw [hlength, substituteFrom_length_append]

theorem substitute_cons {c : Char} {r : List Char} (h : find (c :: r) = none) :
    substitute find (c :: r) = c :: substitute find r := by
  rw [substitute, substituteFrom, h]
  rfl

/-- A text stays as it is when nothing is found that begins in it. -/
theorem substitute_append {text rest : List Char} (h : ∀ t, t ≠ [] → t <:+ text → find (t ++ rest) = none) :
    substitute find (text ++ rest) = text ++ substitute find rest := by
  induction text with
  | nil => rfl
  | cons c text ih =>
    have hrest := ih fun t hne ht => h t hne (ht.trans (List.suffix_cons c text))
    have hstart : find (c :: (text ++ rest)) = none := h (c :: text) (by simp) List.suffix_rfl
    rw [List.cons_append, substitute_cons hstart, hrest, List.cons_append]

/-! ## The search as an induction -/

/-- What it means that the text after what is found is shorter than the text before: it is the rest of it. -/
def Advances (find : Finder) : Prop :=
  ∀ s text rest, find s = some (text, rest) → ∃ part, part ≠ [] ∧ s = part ++ rest

/-- What holds of the empty text, and is kept by each step of the search, holds of every text and its result. -/
theorem substitute_induction (h : Advances find) {motive : List Char → List Char → Prop} (nil : motive [] [])
    (found : ∀ part text rest, find (part ++ rest) = some (text, rest) → motive rest (substitute find rest) →
      motive (part ++ rest) (text ++ substitute find rest))
    (cons : ∀ c r, find (c :: r) = none → motive r (substitute find r) →
      motive (c :: r) (c :: substitute find r)) (s : List Char) : motive s (substitute find s) := by
  induction hn : s.length using Nat.strongRecOn generalizing s with
  | ind n ih =>
    subst hn
    cases s with
    | nil => exact nil
    | cons c r =>
      cases hfind : find (c :: r) with
      | none =>
        rw [substitute_cons hfind]
        exact cons c r hfind (ih r.length (by simp) r rfl)
      | some result =>
        obtain ⟨text, rest⟩ := result
        obtain ⟨part, hne, hpart⟩ := h _ _ _ hfind
        rw [hpart] at hfind ih ⊢
        rw [substitute_of_find hne hfind]
        have hshorter : rest.length < (part ++ rest).length := by
          rw [List.length_append]
          exact Nat.lt_add_of_pos_left (List.length_pos_iff.2 hne)
        exact found part text rest hfind (ih rest.length hshorter rest rfl)

/-- A text that is put together of what is found has no other characters than the text that is searched. -/
theorem substitute_subset (h : Advances find)
    (htext : ∀ s text rest, find s = some (text, rest) → text ⊆ s) (s : List Char) : substitute find s ⊆ s := by
  induction s using substitute_induction h with
  | nil => exact List.nil_subset _
  | found part text rest hfind ih =>
    exact List.append_subset.2 ⟨htext _ _ _ hfind, List.Subset.trans ih (List.subset_append_right part rest)⟩
  | cons c r _ ih => exact List.cons_subset_cons c ih

/-- What it means that nothing is found in a text that runs into the text after it. -/
def StaysIn (find : Finder) (s u : List Char) : Prop :=
  ∀ t, t ≠ [] → t <:+ s → find (t ++ u) = (find t).map fun (text, rest) => (text, rest ++ u)

theorem StaysIn.suffix {s t u : List Char} (h : StaysIn find s u) (ht : t <:+ s) : StaysIn find t u :=
  fun r hne hr => h r hne (hr.trans ht)

/-- Then the two texts are searched one by one. -/
theorem StaysIn.substitute_append (hfind : Advances find) {s u : List Char} (h : StaysIn find s u) :
    substitute find (s ++ u) = substitute find s ++ substitute find u := by
  revert h
  induction s using substitute_induction hfind with
  | nil => exact fun _ => rfl
  | found part text rest hfound ih =>
    intro h
    have hne : part ≠ [] := by
      obtain ⟨part', hne, hpart⟩ := hfind _ _ _ hfound
      rwa [List.append_cancel_right hpart]
    have hstays := h (part ++ rest) (List.append_ne_nil_of_left_ne_nil hne rest) List.suffix_rfl
    rw [hfound, List.append_assoc] at hstays
    rw [List.append_assoc, substitute_of_find hne hstays, ih (h.suffix (List.suffix_append part rest)),
      List.append_assoc]
  | cons c r hfound ih =>
    intro h
    have hnone : find (c :: (r ++ u)) = none := by
      simpa [hfound] using h (c :: r) (List.cons_ne_nil c r) List.suffix_rfl
    rw [List.cons_append, substitute_cons hnone, ih (h.suffix (List.suffix_cons c r)), List.cons_append]

/-! ## Patterns -/

theorem findPattern_append (pattern replacement rest : List Char) :
    findPattern pattern replacement (pattern ++ rest) = some (replacement, rest) := by
  rw [findPattern, dropStart?_append]
  rfl

theorem findPattern_eq_none {pattern replacement s : List Char} (h : ¬ pattern <+: s) :
    findPattern pattern replacement s = none := by
  rw [findPattern, Option.map_eq_none_iff]
  cases hdrop : dropStart? pattern s with
  | none => rfl
  | some rest => exact absurd ⟨rest, (eq_append_of_dropStart? hdrop).symm⟩ h

theorem not_prefix_of_not_contains {pattern s : List Char} (h : contains pattern s = false) :
    ∀ t, t <:+ s → ¬ pattern <+: t := by
  intro t ht hprefix
  induction s with
  | nil =>
    obtain rfl := List.suffix_nil.1 ht
    obtain rfl := List.prefix_nil.1 hprefix
    cases h
  | cons c s ih =>
    rw [contains, Bool.or_eq_false_iff] at h
    rcases List.suffix_cons_iff.1 ht with rfl | ht
    · obtain ⟨rest, hrest⟩ := hprefix
      rw [← hrest, dropStart?_append] at h
      cases h.1
    · exact ih h.2 ht

/-- A text without the pattern stays as it is. -/
theorem replace_eq_self {pattern s : List Char} (h : contains pattern s = false) (replacement : List Char) :
    replace pattern replacement s = s :=
  substitute_eq_self fun t ht => findPattern_eq_none (not_prefix_of_not_contains h t ht)

theorem replace_pattern {pattern : List Char} (hne : pattern ≠ []) (replacement rest : List Char) :
    replace pattern replacement (pattern ++ rest) = replacement ++ replace pattern replacement rest :=
  substitute_of_find hne (findPattern_append pattern replacement rest)

/-- A text stays as it is when no occurrence of the pattern begins in it. -/
theorem replace_append {pattern replacement text rest : List Char}
    (h : ∀ t, t ≠ [] → t <:+ text → ¬ pattern <+: t ++ rest) :
    replace pattern replacement (text ++ rest) = text ++ replace pattern replacement rest :=
  substitute_append fun t hne ht => findPattern_eq_none (h t hne ht)

end TypeBridge.Text
