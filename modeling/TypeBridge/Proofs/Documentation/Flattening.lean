import TypeBridge.Documentation.Block
import TypeBridge.Proofs.Documentation.Tag
import TypeBridge.Proofs.Text.Respaced

/-!
# Flattened text

A section of documentation is flattened in three steps: references and other tags are taken out, character references
are resolved, and the text is divided into trimmed lines. What comes out is in a normal form: it has no tags any more
and flattening it again changes nothing, as long as no character reference puts a new tag together.

Results:
* `flatten_eq`: the steps.
* `tagFree_withoutTags`, `TagFree.respaced`: no tag is left, and none is put together when blanks are trimmed.
* `flatten_normal`: the normal form.
-/
namespace TypeBridge.Documentation

open Text

/-! ## The steps -/

/-- A text in which references give their names and other tags are taken out. -/
def withoutTags (s : List Char) : List Char :=
  substitute findTag (substitute (findReference ["paramref", "typeparamref"] ["name"] id)
    (substitute (findReference ["see", "seealso"] ["cref", "href", "langword"] displayName) s))

theorem flatten_eq (s : List Char) : flatten s = textLines (resolveReferences (withoutTags s)) := rfl

theorem displayName_subset (reference : List Char) : displayName reference ⊆ reference := by
  have hafter (c : Char) (s : List Char) : afterLast c s ⊆ s := fun d hd =>
    List.mem_reverse.1 ((List.takeWhile_sublist _).subset (List.mem_reverse.1 hd))
  have hbefore (c : Char) (s : List Char) : (splitFirst c s).1 ⊆ s := by
    induction s with
    | nil => exact List.nil_subset _
    | cons d s ih =>
      rw [splitFirst]
      split
      · exact List.nil_subset _
      · exact List.cons_subset_cons d ih
  refine List.Subset.trans (List.Subset.trans (hafter '.' _) (hbefore '(' _)) ?_
  split
  · split
    · exact List.Subset.trans (List.subset_cons_self _ _) (List.subset_cons_self _ _)
    · exact List.Subset.refl _
  · exact List.Subset.refl _

theorem substitute_findReference_subset {names keys : List String} {render : List Char → List Char}
    (h : ∀ value, render value ⊆ value) (s : List Char) : substitute (findReference names keys render) s ⊆ s := by
  refine substitute_subset (advances_findReference names keys render) (fun s text rest hfind => ?_) s
  obtain ⟨part, value, href, rfl, rfl⟩ := findReference_eq_some hfind
  exact List.Subset.trans (List.Subset.trans (h value) href.value_subset) (List.subset_append_left part rest)

/-- What is put in for tags is taken from the text. -/
theorem withoutTags_subset (s : List Char) : withoutTags s ⊆ s := by
  refine List.Subset.trans (substitute_findTag_subset _) ?_
  refine List.Subset.trans (substitute_findReference_subset (fun value => List.Subset.refl value) _) ?_
  exact substitute_findReference_subset displayName_subset s

/-! ## No tags -/

theorem tagFree_withoutTags (s : List Char) : TagFree (withoutTags s) := tagFree_substitute_findTag _

theorem TagFree.withoutTags_eq {s : List Char} (h : TagFree s) : withoutTags s = s := by
  rw [withoutTags, h.substitute_findReference (by decide), h.substitute_findReference (by decide),
    h.substitute_findTag]

/-- Other blanks make no tag: a `>` right after a `<` stays there, and no `>` is added. -/
theorem TagFree.respaced {s t : List Char} (hs : TagFree s) (h : Respaced s t) : TagFree t := by
  induction h with
  | nil => exact tagFree_nil
  | keep c hst ih =>
    obtain ⟨hfind, hs⟩ := tagFree_cons_iff.1 hs
    refine tagFree_cons_iff.2 ⟨?_, ih hs⟩
    by_cases hc : c = '<'
    · subst hc
      refine findTag_eq_none_iff.2 ((findTag_eq_none_iff.1 hfind).imp ?_ ?_)
      · rintro ⟨r, rfl⟩
        obtain ⟨r, rfl, -⟩ := hst.cons (by decide)
        exact ⟨r, rfl⟩
      · exact mt (hst.mem_iff (by decide)).1
    · exact findTag_of_ne hc _
  | drop _ _ ih => exact ih (tagFree_cons_iff.1 hs).2
  | @replace _ _ _ d _ hd _ ih =>
    have hne : d ≠ '<' := fun heq => by
      rw [heq] at hd
      cases hd
    exact tagFree_cons_iff.2 ⟨findTag_of_ne hne _, ih (tagFree_cons_iff.1 hs).2⟩

/-! ## The normal form -/

/-- What it means that lines are those of a text with nothing to trim. -/
structure AreTrimmed (ls : List (List Char)) : Prop where
  lines : ∀ line ∈ ls, IsTrimmed isBlank line ∧ IsSingleLine line
  edges : IsTrimmed isBlankText ls

theorem areTrimmed_textLines (s : List Char) : AreTrimmed (textLines s) := by
  refine ⟨fun line hline => ?_, isTrimmed_trimEdges isBlankText _⟩
  obtain ⟨whole, hwhole, rfl⟩ := List.mem_map.1 ((sublist_trimEdges _ _).subset hline)
  have hsingle : IsSingleLine whole := not_isLineBreak_of_mem_lines hwhole
  exact ⟨isTrimmed_trimEdges isBlank whole, hsingle.of_subset (sublist_trimEdges isBlank whole).subset⟩

/-- Trimmed lines are found again in the text that they make. -/
theorem AreTrimmed.textLines_joinLines {ls : List (List Char)} (h : AreTrimmed ls) : textLines (joinLines ls) = ls := by
  have hlast : ∀ line ∈ ls.getLast?, line ≠ [] := by
    rintro line hline rfl
    exact Bool.noConfusion (h.edges.last [] hline)
  have htrim : ls.map trim = ls :=
    (List.map_congr_left fun line hline => trimEdges_eq_self (h.lines line hline).1).trans (List.map_id ls)
  rw [textLines, lines_joinLines (fun line hline => (h.lines line hline).2) hlast, htrim]
  exact trimEdges_eq_self h.edges

/-- The lines of flattened text are trimmed, and the first and the last of them are not blank. In a text without
character references they hold no tag, and make a text that is flattened to them again. -/
theorem flatten_normal (s : List Char) :
    (∀ line ∈ flatten s, IsTrimmed isBlank line ∧ IsSingleLine line) ∧ IsTrimmed isBlankText (flatten s) ∧
      ('&' ∉ s → TagFree (joinLines (flatten s)) ∧ flatten (joinLines (flatten s)) = flatten s) := by
  have htrimmed : AreTrimmed (flatten s) := areTrimmed_textLines _
  refine ⟨htrimmed.lines, htrimmed.edges, fun hs => ?_⟩
  have hreference : '&' ∉ withoutTags s := fun h => hs (withoutTags_subset s h)
  have hspaced : Respaced (withoutTags s) (joinLines (flatten s)) := by
    rw [flatten_eq, resolveReferences_eq_self hreference]
    exact respaced_textLines _
  have hfree := (tagFree_withoutTags s).respaced hspaced
  refine ⟨hfree, ?_⟩
  have hreference' : '&' ∉ joinLines (flatten s) := fun h => hreference ((hspaced.mem_iff (by decide)).1 h)
  rw [flatten_eq (joinLines (flatten s)), hfree.withoutTags_eq, resolveReferences_eq_self hreference',
    htrimmed.textLines_joinLines]

/-- A section with a reference and other tags, one of which is not one. -/
def markedText : List Char := "  <b>Gets</b> <> <see cref=\"T:A.B<C>\"/>\n\t<<i>of x> 1  ".toList

theorem flatten_normal_markedText :
    '&' ∉ markedText ∧ flatten markedText = ["Gets <> B".toList, "of x> 1".toList] ∧
      TagFree (joinLines (flatten markedText)) ∧ flatten (joinLines (flatten markedText)) = flatten markedText := by
  have hreference : '&' ∉ markedText := by decide
  exact ⟨hreference, by decide, (flatten_normal markedText).2.2 hreference⟩

end TypeBridge.Documentation
