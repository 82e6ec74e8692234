import TypeBridge.Documentation.Block
import TypeBridge.Proofs.Text.Margin

/-!
# Code samples

The lines of a code sample are those that are written, but without blanks at their ends, without blank lines at the
beginning and at the end, and without the margin: the longest indentation that all lines share that are not blank.
So code can be indented as the comment around it asks for, and what is indented against other lines stays so.

Results:
* `trimBlankLines_sample`: blank lines have no part in it.
* `codeLines_joinLines`: the lines of a sample.
* `codeLines_outdents`: they do not depend on how far the sample is indented.
-/
namespace TypeBridge.Documentation

open Text

/-- What a line of code is here: a single line in which nothing is written as a character reference. -/
def IsCodeLine (line : List Char) : Prop := '&' ∉ line ∧ IsSingleLine line

instance : DecidablePred IsCodeLine := fun _ => inferInstanceAs (Decidable (_ ∧ _))

/-- The lines of a sample that is written as the given lines, when the margin is `m`. -/
def outdented (m : List Char) (ls : List (List Char)) : List (List Char) := (trimLines ls).map (outdent m)

/-! ## Lines of code -/

theorem isCodeLine_trimEnd {line : List Char} (h : IsCodeLine line) : IsCodeLine (trimEnd line) :=
  ⟨fun hmem => h.1 ((prefix_trimEnd line).subset hmem), h.2.of_subset (prefix_trimEnd line).subset⟩

theorem isCodeLine_indented {p line : List Char} (hp : IsIndentation p) (h : IsCodeLine line) :
    IsCodeLine (p ++ line) := by
  constructor
  · intro hmem
    rcases List.mem_append.1 hmem with hmem | hmem
    · exact Bool.noConfusion (hp '&' hmem)
    · exact h.1 hmem
  · intro c hc
    rcases List.mem_append.1 hc with hc | hc
    · have hindent := hp c hc
      rw [isIndent, Bool.or_eq_true, beq_iff_eq, beq_iff_eq] at hindent
      rcases hindent with rfl | rfl <;> rfl
    · exact h.2 c hc

/-- An empty last line is lost when the joined lines are divided, but it would be trimmed anyway. -/
theorem trimBlankLines_sample {ls : List (List Char)} (h : ∀ line ∈ ls, IsCodeLine line) :
    trimBlankLines ((lines (joinLines ls)).map fun line => resolveReferences (trimEnd line)) = trimLines ls := by
  have hresolve {code : List (List Char)} (hcode : ∀ line ∈ code, IsCodeLine line) :
      code.map (fun line => resolveReferences (trimEnd line)) = code.map trimEnd :=
    List.map_congr_left fun line hline => resolveReferences_eq_self (isCodeLine_trimEnd (hcode line hline)).1
  rcases List.eq_nil_or_concat' ls with rfl | ⟨before, last, rfl⟩
  · rfl
  · obtain ⟨hbefore, hlast⟩ := List.forall_mem_append.1 h
    rw [lines_joinLines_concat fun line hline => (hbefore line hline).2, trimLines]
    by_cases hempty : last = []
    · subst hempty
      rw [lines, List.append_nil, hresolve hbefore, List.map_append, List.map_singleton]
      exact (trimEdges_concat (p := isBlankText) rfl _).symm
    · rw [lines_eq_singleton (hlast last List.mem_cons_self).2 hempty, hresolve h]

/-! ## The lines of a sample -/

theorem outdent_ne_nil {m line : List Char} (hm : IsIndentation m) (hstart : m <+: line)
    (h : isBlankText line = false) : outdent m line ≠ [] := by
  obtain ⟨rest, rfl⟩ := hstart
  rw [outdent, if_neg (Bool.eq_false_iff.1 h), List.drop_left]
  rintro rfl
  rw [hm.isBlankText_append] at h
  cases h

theorem outdent_subset (m line : List Char) : outdent m line ⊆ line := by
  unfold outdent
  split
  · exact List.nil_subset line
  · exact List.drop_subset m.length line

theorem codeLines_joinLines {ls : List (List Char)} (h : ∀ line ∈ ls, IsCodeLine line) {m : List Char}
    (hm : IsMargin ls m) (hne : ∃ line ∈ ls, isBlankText line = false) :
    codeLines (joinLines ls) = outdented m ls := by
  have hmargin := isMargin_trimLines_iff.2 hm
  have hsingle : ∀ line ∈ trimLines ls, IsSingleLine line := by
    intro line hline
    obtain ⟨whole, hwhole, rfl⟩ := exists_of_mem_trimLines hline
    exact (isCodeLine_trimEnd (h whole hwhole)).2
  have hlast : ∀ line ∈ (trimLines ls).getLast?, isBlankText line = false :=
    (isTrimmed_trimEdges isBlankText (ls.map trimEnd)).last
  rw [codeLines, trimBlankLines_sample h, outdented,
    removeMargin_joinLines (fun line hline => (hsingle line hline).lineFeed_not_mem)
      (fun line => eq_nil_of_mem_trimLines) (exists_mem_trimLines hne) hmargin]
  -- The last line is not blank and does not become empty without the margin, so that no line is lost.
  refine lines_joinLines (List.forall_mem_map.2 fun line hline => ?_) fun line hline => ?_
  · exact (hsingle line hline).of_subset (outdent_subset m line)
  · rw [List.getLast?_map, Option.mem_def, Option.map_eq_some_iff] at hline
    obtain ⟨last, hmem, rfl⟩ := hline
    have hstart := hmargin.shared.starts last (List.mem_of_getLast? hmem) (hlast last hmem)
    exact outdent_ne_nil hm.shared.isIndentation hstart (hlast last hmem)

theorem codeLines_eq_nil {ls : List (List Char)} (h : ∀ line ∈ ls, IsCodeLine line)
    (hblank : ∀ line ∈ ls, isBlankText line = true) : codeLines (joinLines ls) = [] := by
  rw [codeLines, trimBlankLines_sample h, trimLines_eq_nil_iff.2 hblank]
  rfl

/-! ## Further indentation -/

theorem outdent_append {p : List Char} (hp : IsIndentation p) (m line : List Char) :
    outdent (p ++ m) (trimEnd (p ++ line)) = outdent m (trimEnd line) := by
  unfold outdent
  simp only [isBlankText_trimEnd, hp.isBlankText_append]
  split
  · rfl
  · rename_i h
    rw [trimEnd_append (Bool.eq_false_iff.2 h), List.length_append, ← List.drop_drop, List.drop_left]

theorem outdented_eq_map (m : List Char) (ls : List (List Char)) :
    outdented m ls = (trimBlankLines ls).map fun line => outdent m (trimEnd line) := by
  have hblank : isBlankText ∘ trimEnd = isBlankText := funext isBlankText_trimEnd
  rw [outdented, trimLines, trimBlankLines_eq_trimEdges, trimEdges_map, hblank, List.map_map]
  rfl

theorem outdented_indented {p : List Char} (hp : IsIndentation p) (m : List Char) (ls : List (List Char)) :
    outdented (p ++ m) (ls.map (p ++ ·)) = outdented m ls := by
  have hblank : (isBlankText ∘ fun line => p ++ line) = isBlankText := funext hp.isBlankText_append
  rw [outdented_eq_map, outdented_eq_map, trimBlankLines_eq_trimEdges, trimEdges_map, hblank, List.map_map]
  exact List.map_congr_left fun line _ => outdent_append hp m line

/-- A code sample of lines is the same when all of them are indented further by the same spaces and tabs. Its lines
are the given ones without the blanks at their ends, without the blank lines at the beginning and at the end, and
without the longest indentation that all lines share that are not blank; the other blank lines are empty. -/
theorem codeLines_outdents {ls : List (List Char)} (h : ∀ line ∈ ls, IsCodeLine line) :
    (∀ p, IsIndentation p → codeLines (joinLines (ls.map (p ++ ·))) = codeLines (joinLines ls)) ∧
      ((∃ line ∈ ls, isBlankText line = false) →
        ∃ m, IsMargin ls m ∧ codeLines (joinLines ls) = outdented m ls) ∧
      ((∀ line ∈ ls, isBlankText line = true) → codeLines (joinLines ls) = []) := by
  refine ⟨fun p hp => ?_, fun hne => ?_, codeLines_eq_nil h⟩
  · have hindented : ∀ line ∈ ls.map (p ++ ·), IsCodeLine line :=
      List.forall_mem_map.2 fun line hline => isCodeLine_indented hp (h line hline)
    by_cases hne : ∃ line ∈ ls, isBlankText line = false
    · obtain ⟨m, hm⟩ := exists_isMargin hne
      have hne' : ∃ line ∈ ls.map (p ++ ·), isBlankText line = false := by
        obtain ⟨line, hline, hblank⟩ := hne
        exact ⟨p ++ line, List.mem_map_of_mem hline, (hp.isBlankText_append line).trans hblank⟩
      rw [codeLines_joinLines hindented (hm.reindent hne hp) hne', codeLines_joinLines h hm hne,
        outdented_indented hp]
    · have hblank : ∀ line ∈ ls, isBlankText line = true := by simpa using hne
      rw [codeLines_eq_nil h hblank, codeLines_eq_nil hindented]
      exact List.forall_mem_map.2 fun line hline => (hp.isBlankText_append line).trans (hblank line hline)
  · obtain ⟨m, hm⟩ := exists_isMargin hne
    exact ⟨m, hm, codeLines_joinLines h hm hne⟩

/-- Two lines of code with a blank one between them, indented by spaces and then by a tab. -/
def sampleLines : List (List Char) := ["  if (ready)".toList, "\t".toList, "  \tRun();  ".toList]

theorem codeLines_outdents_sampleLines :
    (∀ line ∈ sampleLines, IsCodeLine line) ∧
      codeLines (joinLines (sampleLines.map ("\t ".toList ++ ·))) = ["if (ready)".toList, [], "\tRun();".toList] := by
  have hcode : ∀ line ∈ sampleLines, IsCodeLine line := by decide
  refine ⟨hcode, ?_⟩
  rw [(codeLines_outdents hcode).1 "\t ".toList (by decide)]
  decide

end TypeBridge.Documentation
