import TypeBridge.Proofs.TypeExpr.WellFormed
import TypeBridge.Proofs.Text.Separator

/-!
# Names cut at their dots

A name can be kept as the one text that it is written as. Its qualifier, its first and its last part are then found by
cutting the text at dots, and by taking one of the pieces by its position. The pieces of a name are never so few that
there is none at the position, and they are the parts of the name.

Results:
* `isSome_entryAt?_iff`: the positions that a list has.
* `parts_text`, `qualifier?_text`: the parts and the qualifier of a name, from its text.
* `entryAt?_cutFirst`, `entryAt?_cutLast`: its first and its last part.
-/
namespace TypeBridge

/-! ## Entries by position -/

section Entry

variable {α : Type}

/-- The entry of a list at a position, if it has one. Positions below zero count from the end, where the last entry has
position -1. -/
def entryAt? (xs : List α) (position : Int) : Option α :=
  if 0 ≤ position then xs[position.toNat]? else xs.reverse[(-position).toNat - 1]?

theorem isSome_entryAt?_iff {xs : List α} {position : Int} :
    (entryAt? xs position).isSome ↔ -(xs.length : Int) ≤ position ∧ position < xs.length := by
  unfold entryAt?
  split
  · rw [isSome_getElem?]
    omega
  · rw [isSome_getElem?, List.length_reverse]
    omega

theorem entryAt?_natCast (xs : List α) (position : Nat) : entryAt? xs position = xs[position]? := by
  rw [entryAt?, if_pos (Int.natCast_nonneg _), Int.toNat_natCast]

theorem drop_of_entryAt? {xs : List α} {position : Nat} {x : α} (h : entryAt? xs position = some x) :
    xs.drop position = x :: xs.drop (position + 1) := by
  rw [entryAt?_natCast, List.getElem?_eq_some_iff] at h
  obtain ⟨hlt, rfl⟩ := h
  exact List.drop_eq_getElem_cons hlt

theorem entryAt?_cons (x : α) (xs : List α) : entryAt? (x :: xs) 0 = some x := rfl

theorem entryAt?_concat (xs : List α) (x : α) : entryAt? (xs ++ [x]) (-1) = some x := by
  simp [entryAt?]

theorem entryAt?_last {xs : List α} (hne : xs ≠ []) (d : α) : entryAt? xs (-1) = some (xs.getLastD d) := by
  obtain ⟨before, x, rfl⟩ := (List.eq_nil_or_concat' xs).resolve_left hne
  rw [entryAt?_concat, List.getLastD_concat]

theorem entryAt?_concat_two (xs : List α) (x y : α) : entryAt? (xs ++ [x, y]) (-2) = some x := by
  simp [entryAt?]

theorem entryAt?_map {β : Type} (f : α → β) (xs : List α) (position : Int) :
    entryAt? (xs.map f) position = (entryAt? xs position).map f := by
  unfold entryAt?
  split
  · exact List.getElem?_map
  · rw [← List.map_reverse]
    exact List.getElem?_map

theorem mem_of_entryAt? {xs : List α} {position : Int} {x : α} (h : entryAt? xs position = some x) : x ∈ xs := by
  unfold entryAt? at h
  split at h
  · exact List.mem_of_getElem? h
  · exact List.mem_reverse.1 (List.mem_of_getElem? h)

end Entry

/-! ## Names as texts -/

namespace NameText

/-- The text before the first dot and the text behind it, or all of it when there is no dot. -/
def cutFirst (name : String) : List String :=
  match Text.splitFirst '.' name.toList with
  | (_, none) => [name]
  | (before, some after) => [.ofList before, .ofList after]

/-- The text before the last dot and the text behind it, or all of it when there is no dot. -/
def cutLast (name : String) : List String :=
  match Text.splitFirst '.' name.toList.reverse with
  | (_, none) => [name]
  | (after, some before) => [.ofList before.reverse, .ofList after.reverse]

/-- The texts between dots. -/
def parts (name : String) : List String := (Text.splitOn (· == '.') name.toList).map .ofList

/-- The text before the last dot, which is empty when there is no dot. -/
def qualifier? (name : String) : Option String :=
  if '.' ∈ name.toList then entryAt? (cutLast name) 0 else some ""

theorem dot_not_mem_of_mem_parts {name part : String} (h : part ∈ parts name) : '.' ∉ part.toList := by
  obtain ⟨piece, hpiece, rfl⟩ := List.mem_map.1 h
  rw [String.toList_ofList]
  exact Text.not_mem_of_mem_splitOn rfl hpiece

/-- A part of a name with a qualifier has fewer dots than the name. -/
theorem count_lt_of_mem_parts {name part qualifier : String} (hqualifier : qualifier? name = some qualifier)
    (hne : qualifier ≠ "") (hpart : part ∈ parts name) : part.toList.count '.' < name.toList.count '.' := by
  have hmem : '.' ∈ name.toList := by
    by_contra hdot
    rw [qualifier?, if_neg hdot] at hqualifier
    exact hne (Option.some.inj hqualifier).symm
  rw [List.count_eq_zero.2 (dot_not_mem_of_mem_parts hpart)]
  exact List.count_pos_iff.2 hmem

theorem toList_text (name : TypeName) : name.text.toList = ['.'].intercalate (name.segments.map String.toList) := by
  rw [TypeName.text, String.toList_intercalate]
  rfl

theorem text_of_simple {name : TypeName} (hq : name.qualifier = []) : name.text = name.simple := by
  rw [TypeName.text, TypeName.segments, hq]
  simp

theorem toList_text_of_qualified {name : TypeName} (hq : name.qualifier ≠ []) :
    name.text.toList = name.qualifierText.toList ++ '.' :: name.simple.toList := by
  rw [toList_text, TypeName.segments, List.map_append, List.map_singleton, intercalate_concat _ (by simpa using hq),
    TypeName.qualifierText, String.toList_intercalate, List.append_assoc]
  rfl

section WellFormed

variable {name : TypeName} (h : name.WellFormed)
include h

theorem parts_text : parts name.text = name.segments := by
  have hdots : ∀ part ∈ name.segments.map String.toList, '.' ∉ part := by
    intro part hpart
    obtain ⟨text, htext, rfl⟩ := List.mem_map.1 hpart
    exact (h text htext).dot_not_mem
  rw [parts, toList_text, Text.splitOn_eq_splitOnP, ← List.splitOn_eq_splitOnP,
    List.splitOn_intercalate '.' hdots (by simp [TypeName.segments]), List.map_map]
  simp

/-- A name is cut at its last dot into its qualifier and its simple name. -/
theorem cutLast_text (hq : name.qualifier ≠ []) : cutLast name.text = [name.qualifierText, name.simple] := by
  have hdot : '.' ∉ name.simple.toList.reverse := by
    rw [List.mem_reverse]
    exact h.simple.dot_not_mem
  have hcut : Text.splitFirst '.' name.text.toList.reverse =
      (name.simple.toList.reverse, some name.qualifierText.toList.reverse) := by
    rw [toList_text_of_qualified hq, List.reverse_append, List.reverse_cons, List.append_assoc]
    exact Text.splitFirst_eq _ _ hdot
  rw [cutLast, hcut]
  simp

theorem entryAt?_cutLast (hq : name.qualifier ≠ []) : entryAt? (cutLast name.text) (-1) = some name.simple := by
  rw [cutLast_text h hq]
  rfl

theorem entryAt?_cutFirst : entryAt? (cutFirst name.text) 0 = some name.first := by
  obtain ⟨qualifier, simple⟩ := name
  cases qualifier with
  | nil =>
    have hcut : Text.splitFirst '.' simple.toList = (simple.toList, none) :=
      Text.splitFirst_of_not_mem h.simple.dot_not_mem
    rw [text_of_simple rfl, cutFirst, hcut]
    rfl
  | cons first rest =>
    have hdot : '.' ∉ first.toList := (h.of_mem_qualifier List.mem_cons_self).dot_not_mem
    obtain ⟨after, htext⟩ : ∃ after, (TypeName.text ⟨first :: rest, simple⟩).toList = first.toList ++ '.' :: after := by
      rw [toList_text, TypeName.segments, List.cons_append, List.map_cons, intercalate_cons]
      cases rest with
      | nil => exact ⟨_, rfl⟩
      | cons second rest => exact ⟨_, rfl⟩
    rw [cutFirst, htext, Text.splitFirst_eq _ _ hdot, entryAt?_cons, String.ofList_toList]
    rfl

theorem qualifier?_text : qualifier? name.text = some name.qualifierText := by
  by_cases hq : name.qualifier = []
  · have hdot : '.' ∉ name.text.toList := by
      rw [text_of_simple hq]
      exact h.simple.dot_not_mem
    rw [qualifier?, if_neg hdot, TypeName.qualifierText, hq]
    rfl
  · have hdot : '.' ∈ name.text.toList := by
      rw [toList_text_of_qualified hq]
      simp
    rw [qualifier?, if_pos hdot, cutLast_text h hq, entryAt?_cons]

/-- Only names without a qualifier have an empty one. -/
theorem intercalate_eq_empty_iff {space : List String} (hspace : space ⊆ name.qualifier) :
    ".".intercalate space = "" ↔ space = [] := by
  refine ⟨fun htext => ?_, fun hnil => by rw [hnil]; rfl⟩
  cases space with
  | nil => rfl
  | cons first rest =>
    have hlist := congrArg String.toList htext
    rw [String.toList_intercalate, List.map_cons, intercalate_cons] at hlist
    have hfirst := (List.append_eq_nil_iff.1 hlist).1
    exact absurd (String.toList_inj.1 hfirst) (h.of_mem_qualifier (hspace List.mem_cons_self)).ne_empty

end WellFormed

end NameText

end TypeBridge
