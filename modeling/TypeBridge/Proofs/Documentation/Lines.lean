import TypeBridge.Documentation.Block
import TypeBridge.Output.Comment
import Mathlib.Data.List.Infix

/-!
# Lines of documentation

What comments in a source say is written as lines, and no comment makes one of these hold a line feed:
summaries, samples and remarks are divided into lines after everything in them is resolved, and a comment that
is not structured is either divided as well or is a single line itself.

Results:
* `mem_blockLines`: where the lines of a block come from.
* `lineFeed_not_mem_flatten`, `lineFeed_not_mem_plainLines`: the texts of a block.
* `lineFeed_not_mem_documentation`: the lines for a declaration.
-/
namespace TypeBridge.Documentation

/-- What the comments of a source are: those that do not run over several lines begin with two slashes, and
the others with a slash and a star. -/
def IsSourceComment (comment : String) : Prop :=
  ['/', '*'] <+: comment.toList ∨ '\n' ∉ comment.toList

instance : DecidablePred IsSourceComment := fun _ => inferInstanceAs (Decidable (_ ∨ _))

/-- The texts that are chosen for all blocks are single lines. -/
structure HasSingleLines (options : Options) : Prop where
  introduction : '\n' ∉ options.remarksIntroduction.toList
  language : '\n' ∉ options.codeSampleLanguage.toList

/-! ## Trimming -/

theorem sublist_trim (s : List Char) : (Text.trim s).Sublist s := by
  have hend : (Text.trimEnd (Text.trimStart s)).Sublist (Text.trimStart s) := by
    rw [Text.trimEnd, ← List.reverse_sublist, List.reverse_reverse]
    exact List.dropWhile_sublist _
  exact hend.trans (List.dropWhile_sublist _)

theorem mem_of_mem_trimBlankLines {ls : List (List Char)} {line : List Char}
    (h : line ∈ Text.trimBlankLines ls) : line ∈ ls := by
  have h' := (List.dropWhile_sublist _).subset (List.mem_reverse.1 h)
  exact (List.dropWhile_sublist _).subset (List.mem_reverse.1 h')

/-! ## Texts -/

theorem lineFeed_not_mem_lines {s line : List Char} (h : line ∈ Text.lines s) : '\n' ∉ line :=
  fun hmem => Bool.noConfusion (Text.not_isLineBreak_of_mem_lines h '\n' hmem)

theorem lineFeed_not_mem_flatten {s line : List Char} (h : line ∈ flatten s) : '\n' ∉ line := by
  obtain ⟨whole, hwhole, rfl⟩ := List.mem_map.1 (mem_of_mem_trimBlankLines h)
  exact fun hmem => lineFeed_not_mem_lines hwhole ((sublist_trim whole).subset hmem)

theorem sublist_dropStar (line : List Char) : (dropStar line).Sublist line := by
  unfold dropStar
  split
  · exact (sublist_trim _).cons _
  · exact List.Sublist.refl _

/-- A comment that begins with a slash and a star still does so without the blanks around it. -/
theorem trim_openingStar (s : List Char) : ∃ r, Text.trim ('/' :: '*' :: s) = '/' :: '*' :: r := by
  have hstart : Text.trimStart ('/' :: '*' :: s) = '/' :: '*' :: s := rfl
  rw [Text.trim, hstart, Text.trimEnd_cons_of_not_isBlank (by decide), Text.trimEnd_cons_of_not_isBlank (by decide)]
  exact ⟨_, rfl⟩

theorem lineFeed_not_mem_plainLines {comment : String} (hcomment : IsSourceComment comment) {line : List Char}
    (h : line ∈ plainLines comment.toList) : '\n' ∉ line := by
  unfold plainLines at h
  split at h
  · obtain ⟨trimmed, htrimmed, rfl⟩ := List.mem_map.1 (mem_of_mem_trimBlankLines h)
    have hsub := (sublist_dropStar (Text.trim trimmed)).trans (sublist_trim trimmed)
    exact fun hmem => lineFeed_not_mem_lines htrimmed (hsub.subset hmem)
  · rename_i hopening
    rcases hcomment with ⟨body, hbody⟩ | hfeed
    · obtain ⟨r, hr⟩ := trim_openingStar body
      exact absurd (hbody ▸ hr) (hopening r)
    · rw [List.mem_singleton.1 h]
      have hsub := ((sublist_trim _).trans (List.dropWhile_sublist (· == '/'))).trans
        (sublist_trim comment.toList)
      exact fun hmem => hfeed (hsub.subset hmem)

/-! ## Blocks -/

theorem mem_addParagraph {before paragraph : List String} {line : String}
    (h : line ∈ addParagraph before paragraph) : line ∈ before ∨ line = "" ∨ line ∈ paragraph := by
  unfold addParagraph at h
  split at h
  · exact .inr (.inr (by simpa using h))
  · simpa [or_assoc] using h

theorem mem_foldl_addParagraph {samples : List CodeSample} {said : List String} {line : String}
    (h : line ∈ samples.foldl (fun said sample => addParagraph said sample.fenced) said) :
    line ∈ said ∨ (∃ sample ∈ samples, line ∈ sample.fenced) ∨ line = "" := by
  induction samples generalizing said with
  | nil => exact .inl h
  | cons sample samples ih =>
    rcases ih h with h | ⟨other, hother, h⟩ | h
    · rcases mem_addParagraph h with h | h | h
      · exact .inl h
      · exact .inr (.inr h)
      · exact .inr (.inl ⟨sample, List.mem_cons_self, h⟩)
    · exact .inr (.inl ⟨other, List.mem_cons_of_mem _ hother, h⟩)
    · exact .inr (.inr h)

/-- The lines of a block are those of its parts, and the lines that are written between them. -/
theorem mem_blockLines {block : Block} {line : String} (h : line ∈ block.lines) :
    line ∈ block.summary ∨ (∃ sample ∈ block.codeSamples, line ∈ sample.fenced) ∨ line ∈ block.remarks ∨
      line = "" ∨ line = block.remarksIntroduction := by
  have hsaid (h : line ∈ block.codeSamples.foldl (fun said sample => addParagraph said sample.fenced)
      block.summary) : line ∈ block.summary ∨ (∃ sample ∈ block.codeSamples, line ∈ sample.fenced) ∨
        line ∈ block.remarks ∨ line = "" ∨ line = block.remarksIntroduction := by
    rcases mem_foldl_addParagraph h with h | h | h
    · exact .inl h
    · exact .inr (.inl h)
    · exact .inr (.inr (.inr (.inl h)))
  unfold Block.lines at h
  simp only at h
  split at h
  · exact hsaid h
  · rcases mem_addParagraph h with h | h | h
    · exact hsaid h
    · exact .inr (.inr (.inr (.inl h)))
    · rcases List.mem_cons.1 h with h | h
      · exact .inr (.inr (.inr (.inr h)))
      · exact .inr (.inr (.inl h))

/-- The parts of a block of which all lines are single lines. -/
structure Block.HasSingleLines (block : Block) : Prop where
  summary : ∀ line ∈ block.summary, '\n' ∉ line.toList
  samples : ∀ sample ∈ block.codeSamples, '\n' ∉ sample.language.toList ∧ ∀ line ∈ sample.lines, '\n' ∉ line.toList
  remarks : ∀ line ∈ block.remarks, '\n' ∉ line.toList
  introduction : '\n' ∉ block.remarksIntroduction.toList

theorem Block.HasSingleLines.lines {block : Block} (h : block.HasSingleLines) {line : String}
    (hline : line ∈ block.lines) : '\n' ∉ line.toList := by
  rcases mem_blockLines hline with hline | ⟨sample, hsample, hline⟩ | hline | rfl | rfl
  · exact h.summary line hline
  · obtain ⟨hlanguage, hlines⟩ := h.samples sample hsample
    rw [CodeSample.fenced, List.cons_append, List.mem_cons, List.mem_append, List.mem_singleton] at hline
    rcases hline with rfl | hline | rfl
    · simpa using hlanguage
    · exact hlines line hline
    · decide
  · exact h.remarks line hline
  · decide
  · exact h.introduction

theorem hasSingleLines_ofStructured {options : Options} (h : HasSingleLines options) (s : List Char) :
    (ofStructured options s).HasSingleLines := by
  refine ⟨fun line hline => ?_, fun sample hsample => ?_, fun line hline => ?_, h.introduction⟩
  · obtain ⟨chars, hchars, rfl⟩ := List.mem_map.1 hline
    rw [String.toList_ofList]
    split at hchars
    · exact lineFeed_not_mem_flatten hchars
    · split at hchars
      · cases hchars
      · exact lineFeed_not_mem_flatten hchars
  · obtain ⟨content, -, rfl⟩ := List.mem_map.1 hsample
    refine ⟨h.language, fun line hline => ?_⟩
    obtain ⟨chars, hchars, rfl⟩ := List.mem_map.1 hline
    rw [String.toList_ofList]
    exact lineFeed_not_mem_lines hchars
  · obtain ⟨chars, hchars, rfl⟩ := List.mem_map.1 hline
    rw [String.toList_ofList]
    split at hchars
    · split at hchars
      · cases hchars
      · exact lineFeed_not_mem_flatten hchars
    · cases hchars

theorem hasSingleLines_ofComments? {options : Options} (h : HasSingleLines options) {comments : List String}
    (hcomments : ∀ comment ∈ comments, IsSourceComment comment) {block : Block}
    (hblock : ofComments? options comments = some block) : block.HasSingleLines := by
  unfold ofComments? at hblock
  simp only at hblock
  split at hblock
  · cases hblock
  · split at hblock
    · obtain rfl := Option.some.inj hblock
      refine ⟨fun line hline => ?_, List.forall_mem_nil _, List.forall_mem_nil _, h.introduction⟩
      obtain ⟨comment, hcomment, hline⟩ := List.mem_flatMap.1 hline
      obtain ⟨chars, hchars, rfl⟩ := List.mem_map.1 hline
      rw [String.toList_ofList]
      exact lineFeed_not_mem_plainLines (hcomments comment hcomment) hchars
    · obtain rfl := Option.some.inj hblock
      exact hasSingleLines_ofStructured h _

/-- No line of what comments say holds a line feed. -/
theorem lineFeed_not_mem_documentation {options : Options} (h : HasSingleLines options)
    {comments : List String} (hcomments : ∀ comment ∈ comments, IsSourceComment comment) {line : String}
    (hline : line ∈ Output.documentation options comments) : '\n' ∉ line.toList := by
  unfold Output.documentation at hline
  split at hline
  · rename_i block hblock
    exact (hasSingleLines_ofComments? h hcomments hblock).lines hline
  · cases hline

end TypeBridge.Documentation
