import Mathlib.Data.List.Basic

/-!
# Pieces with a separator between them

Lists of lines, of entries, of tokens and of characters are put together of pieces with the same thing between each
two. The separator stands before each piece but the first one, so what is known of the pieces and of the separator
is known of the whole.
-/
namespace TypeBridge

/-- A separator stands before each piece but the first one. -/
theorem intercalate_cons {α : Type} (separator first : List α) (rest : List (List α)) :
    separator.intercalate (first :: rest) = first ++ rest.flatMap (separator ++ ·) := by
  induction rest generalizing first with
  | nil => simp
  | cons second rest ih =>
    rw [List.intercalate_cons_cons, ih, List.flatMap_cons]
    simp only [List.append_assoc]

theorem mem_intercalate {α : Type} {separator : List α} {pieces : List (List α)} {member : α}
    (h : member ∈ separator.intercalate pieces) : member ∈ separator ∨ ∃ piece ∈ pieces, member ∈ piece := by
  cases pieces with
  | nil => cases h
  | cons first rest =>
    rw [intercalate_cons, List.mem_append, List.mem_flatMap] at h
    rcases h with h | ⟨piece, hpiece, h⟩
    · exact .inr ⟨first, List.mem_cons_self, h⟩
    · exact (List.mem_append.1 h).imp_right fun h => ⟨piece, List.mem_cons_of_mem _ hpiece, h⟩

theorem filterMap_intercalate {α β : Type} {f : α → Option β} {separator : List α}
    (h : separator.filterMap f = []) (pieces : List (List α)) :
    (separator.intercalate pieces).filterMap f = pieces.flatMap (·.filterMap f) := by
  cases pieces with
  | nil => rfl
  | cons first rest =>
    rw [intercalate_cons, List.filterMap_append, List.filterMap_flatMap, List.flatMap_cons]
    simp only [List.filterMap_append, h, List.nil_append]

theorem intercalate_concat {α : Type} (separator : List α) {pieces : List (List α)} (h : pieces ≠ [])
    (piece : List α) : separator.intercalate (pieces ++ [piece]) =
      separator.intercalate pieces ++ separator ++ piece := by
  obtain ⟨first, rest, rfl⟩ := List.exists_cons_of_ne_nil h
  rw [List.cons_append, intercalate_cons, intercalate_cons, List.flatMap_append, List.flatMap_singleton]
  simp only [List.append_assoc]

/-- Pieces put together end as the last one does. -/
theorem exists_intercalate_eq_concat {α : Type} (separator : List α) (pieces : List (List α))
    (piece : List α) (last : α) :
    ∃ before, separator.intercalate (pieces ++ [piece ++ [last]]) = before ++ [last] := by
  cases pieces with
  | nil => exact ⟨piece, by simp⟩
  | cons first rest =>
    rw [intercalate_concat separator (List.cons_ne_nil first rest), ← List.append_assoc]
    exact ⟨_, rfl⟩

/-- Blocks that are each followed by a separator. -/
theorem flatMap_concat {α : Type} (separator : List α) {blocks : List (List α)} (h : blocks ≠ []) :
    blocks.flatMap (· ++ separator) = separator.intercalate blocks ++ separator := by
  induction blocks with
  | nil => exact absurd rfl h
  | cons first rest ih =>
    cases rest with
    | nil => simp
    | cons second rest =>
      rw [List.flatMap_cons, ih (List.cons_ne_nil _ _), List.intercalate_cons_cons]
      simp [List.append_assoc]

end TypeBridge
