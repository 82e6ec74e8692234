import TypeBridge.Proofs.Output.Entry
import TypeBridge.Proofs.Text.Line
import TypeBridge.Proofs.Source.Written

/-!
# Where comments end

What is said of a declaration is written into a comment as it is. So a comment ends where it should unless one of
its lines closes it before, which nothing prevents, or unless the reason for a deprecation runs over several
lines. Lines of documentation never do.

Results:
* `isCommentBlock_commentText`: one comment.
* `isCommentBlock_iff`: the comments of a declaration file.
-/

namespace TypeBridge

namespace Output

open Source (Token spaced)

/-! ## One comment -/

/-- The text of a comment. -/
def commentText (indent : String) (remarks : List String) : List Char :=
  Text.joinLines ((comment indent remarks).map String.toList)

/-- What it means that a text is a comment and nothing else: between the line that opens it and the one that
closes it each line begins with a star, and none of the lines before the last one closes it. -/
def IsCommentBlock (indent : String) (block : List Char) : Prop :=
  ∃ inner, Text.feedLines block =
      (indent ++ "/**").toList :: inner ++ [(indent ++ " */").toList] ∧
    (∀ line ∈ inner, (indent ++ " *").toList <+: line) ∧
    ∀ line ∈ (indent ++ "/**").toList :: inner, ¬ "*/".toList <:+: line

/-- Whether a line can stand in a comment: it does not close it, and when it is not one line but several, the
others begin as those of a comment do. -/
def Fits (indent line : String) : Prop :=
  ¬ "*/".toList <:+: line.toList ∧
    ∀ more ∈ (Text.feedLines line.toList).tail, (indent ++ " *").toList <+: more

/-- The lines that a comment has for a line of what it says. -/
def remarkLines (indent line : String) : List (List Char) :=
  Text.feedLines (if line.isEmpty then indent ++ " *" else indent ++ " * " ++ line).toList

variable {indent : String}

theorem lineFeed_not_mem_indent (h : ∀ c ∈ indent.toList, Text.isIndent c = true) : '\n' ∉ indent.toList :=
  fun hmem => Bool.noConfusion (h _ hmem)

/-- An indentation closes no comment. -/
theorem closes_indent_append (h : ∀ c ∈ indent.toList, Text.isIndent c = true) (s : List Char) :
    "*/".toList <:+: indent.toList ++ s ↔ "*/".toList <:+: s := by
  generalize indent.toList = blanks at h
  induction blanks with
  | nil => rfl
  | cons c blanks ih =>
    obtain ⟨hc, hblanks⟩ := List.forall_mem_cons.1 h
    have hstar : '*' ≠ c := by rintro rfl; exact Bool.noConfusion hc
    rw [List.cons_append, List.infix_cons_iff, ih hblanks]
    exact or_iff_right fun hstart => hstar (List.cons_prefix_cons.1 hstart).1

theorem feedLines_commentText (h : ∀ c ∈ indent.toList, Text.isIndent c = true) (remarks : List String) :
    Text.feedLines (commentText indent remarks) =
      (indent ++ "/**").toList :: remarks.flatMap (remarkLines indent) ++ [(indent ++ " */").toList] := by
  have hsingle (text : String) (htext : '\n' ∉ text.toList) :
      Text.feedLines (indent ++ text).toList = [(indent ++ text).toList] := by
    refine Text.feedLines_eq_singleton fun hmem => ?_
    rw [String.toList_append, List.mem_append] at hmem
    exact hmem.elim (lineFeed_not_mem_indent h) htext
  rw [commentText, Text.feedLines_joinLines (by simp [comment]), comment, List.map_append, List.map_cons,
    List.flatMap_append, List.flatMap_cons, hsingle "/**" (by decide), List.map_map, List.flatMap_map,
    List.map_singleton, List.flatMap_singleton, hsingle " */" (by decide)]
  rfl

/-- A line of what a comment says keeps to the comment just if it fits. -/
theorem remarkLines_iff_fits (h : ∀ c ∈ indent.toList, Text.isIndent c = true) (line : String) :
    (∀ written ∈ remarkLines indent line,
      (indent ++ " *").toList <+: written ∧ ¬ "*/".toList <:+: written) ↔ Fits indent line := by
  obtain ⟨first, rest, hlines⟩ := Text.exists_feedLines_eq_cons line.toList
  -- Only the first of the lines has the star put before it; the others are written as they are.
  have hwritten : ∃ text, remarkLines indent line = (indent.toList ++ ' ' :: '*' :: text) :: rest ∧
      ("*/".toList <:+: ' ' :: '*' :: text ↔ "*/".toList <:+: first) := by
    have hindent := lineFeed_not_mem_indent h
    unfold remarkLines
    split
    · rename_i hempty
      obtain rfl : line = "" := by simpa using hempty
      obtain ⟨rfl, rfl⟩ := List.cons.inj hlines
      have hmark : '\n' ∉ indent.toList ++ [' ', '*'] := by simp [hindent]
      exact ⟨[], by simpa using Text.feedLines_eq_singleton hmark, by decide⟩
    · refine ⟨' ' :: first, ?_, by simp [List.infix_cons_iff, List.cons_prefix_cons]⟩
      have hstart : '\n' ∉ indent.toList ++ [' ', '*', ' '] := by simp [hindent]
      simpa using Text.feedLines_append_left hstart hlines
  obtain ⟨text, hwritten, hcloses⟩ := hwritten
  have hmark : (indent ++ " *").toList <+: indent.toList ++ ' ' :: '*' :: text := ⟨text, by simp⟩
  have hne : "*/".toList ≠ [] := by decide
  have hline := Text.infix_iff_feedLines hne (by decide) line.toList
  rw [Fits, hline, hwritten, hlines, List.forall_mem_cons, closes_indent_append h, hcloses]
  simp only [hmark, true_and, List.tail_cons, List.mem_cons, exists_eq_or_imp, not_or, not_exists, not_and]
  constructor
  · rintro ⟨hfirst, hrest⟩
    exact ⟨⟨hfirst, fun more hmore => (hrest more hmore).2⟩, fun more hmore => (hrest more hmore).1⟩
  · rintro ⟨⟨hfirst, hopen⟩, hstars⟩
    exact ⟨hfirst, fun more hmore => ⟨hstars more hmore, hopen more hmore⟩⟩

/-- A comment is one and nothing else just if all that it says fits. -/
theorem isCommentBlock_commentText (h : ∀ c ∈ indent.toList, Text.isIndent c = true) (remarks : List String) :
    IsCommentBlock indent (commentText indent remarks) ↔ ∀ line ∈ remarks, Fits indent line := by
  have hopening : ¬ "*/".toList <:+: (indent ++ "/**").toList := by
    rw [String.toList_append, closes_indent_append h]
    decide
  rw [IsCommentBlock, feedLines_commentText h]
  constructor
  · rintro ⟨inner, hlines, hstars, hopen⟩ line hline
    obtain rfl : remarks.flatMap (remarkLines indent) = inner := by simpa using hlines
    refine (remarkLines_iff_fits h line).1 fun written hwritten => ?_
    have hmem := List.mem_flatMap.2 ⟨line, hline, hwritten⟩
    exact ⟨hstars written hmem, hopen written (List.mem_cons_of_mem _ hmem)⟩
  · intro hfits
    have hinner : ∀ written ∈ remarks.flatMap (remarkLines indent),
        (indent ++ " *").toList <+: written ∧ ¬ "*/".toList <:+: written := by
      intro written hmem
      obtain ⟨line, hline, hwritten⟩ := List.mem_flatMap.1 hmem
      exact (remarkLines_iff_fits h line).2 (hfits line hline) written hwritten
    exact ⟨_, rfl, fun written hmem => (hinner written hmem).1,
      List.forall_mem_cons.2 ⟨hopening, fun written hmem => (hinner written hmem).2⟩⟩

/-! ## All comments -/

/-- Of documentation it is only asked that it does not close its comment. -/
theorem isCommentBlock_of_isOf {options : Options} {comments : List (List String)} {entry : Entry}
    (hindent : ∀ c ∈ options.indentUnit.toList, Text.isIndent c = true)
    (hoptions : Documentation.HasSingleLines options)
    (hcomments : ∀ group ∈ comments, ∀ comment ∈ group, Documentation.IsSourceComment comment)
    (h : entry.IsOf options comments) :
    IsCommentBlock entry.indent (commentText entry.indent entry.remarks) ↔
      (∀ line ∈ entry.documentation, ¬ "*/".toList <:+: line.toList) ∧
        ∀ line ∈ entry.deprecation, Fits entry.indent line := by
  have hsingle : ∀ line ∈ entry.documentation, '\n' ∉ line.toList := by
    intro line hline
    rcases h.documentation with hnone | ⟨group, hgroup, heq⟩
    · rw [hnone] at hline
      cases hline
    · exact Documentation.lineFeed_not_mem_documentation hoptions (hcomments group hgroup) (heq ▸ hline)
  rw [isCommentBlock_commentText fun c hc => hindent c (h.indent c hc), Entry.remarks, and_comm,
    List.forall_mem_append]
  refine and_congr_right fun _ => forall₂_congr fun line hline => and_iff_left_of_imp fun _ => ?_
  rw [Text.feedLines_eq_singleton (hsingle line hline)]
  exact List.forall_mem_nil _

theorem isSourceComment_comments {units : List SourceUnit} (h : ∀ unit ∈ units, unit.IsWritten) :
    ∀ group ∈ (DeclarationSet.ofUnits units).comments, ∀ comment ∈ group,
      Documentation.IsSourceComment comment := by
  intro comments hcomments
  obtain ⟨group, hgroup, hcomments⟩ := List.mem_flatMap.1 hcomments
  have hwritten := isWritten_groups h group hgroup
  rcases List.mem_append.1 hcomments with hcomments | hcomments
  · obtain ⟨declaration, hdeclaration, rfl⟩ := List.mem_map.1 hcomments
    exact (hwritten.enumerations declaration hdeclaration).comments
  · obtain ⟨placed, hplaced, hcomments⟩ := List.mem_flatMap.1 hcomments
    have htype := hwritten.types placed hplaced
    rcases List.mem_cons.1 hcomments with rfl | hcomments
    · exact htype.head.comments
    · obtain ⟨member, hmember, rfl⟩ := List.mem_map.1 hcomments
      exact (htype.members member hmember).comments

/-- The namespaces of a declaration file consist of entries, and the comment before the code of an entry is a
comment and nothing else just if no line of the documentation closes it, and what is said of the deprecation of a
member fits. -/
theorem isCommentBlock_iff {options : Options} {units : List SourceUnit}
    (hindent : ∀ c ∈ options.indentUnit.toList, Text.isIndent c = true)
    (hoptions : Documentation.HasSingleLines options)
    (hunits : ∀ unit ∈ units, ∃ source, Source.unit? options source = some unit) :
    Entry.allLines (entries (translator options (.ofUnits units)) (.ofUnits units)) =
        Section.lines (translator options (.ofUnits units)) (.ofUnits units) .namespaces ∧
      ∀ entry ∈ entries (translator options (.ofUnits units)) (.ofUnits units),
        (IsCommentBlock entry.indent (commentText entry.indent entry.remarks) ↔
          (∀ line ∈ entry.documentation, ¬ "*/".toList <:+: line.toList) ∧
            ∀ line ∈ entry.deprecation, Fits entry.indent line) := by
  refine ⟨lines_entries _ _, fun entry hentry => ?_⟩
  exact isCommentBlock_of_isOf hindent hoptions (isSourceComment_comments (Source.isWritten_units hunits))
    (isOf_entries options (.ofUnits units) entry hentry)

/-- A source with a summary that closes a comment. -/
def closingSource : String := "/// <summary>Ends with */ here</summary>\nclass A { }"

/-- The tokens of `closingSource`. -/
def closingTokens : List Token := [
  ⟨[.comment "/// <summary>Ends with */ here</summary>" true, .blank "\n"], .word, "class"⟩,
  spaced .word "A", spaced .mark "\x7b", spaced .mark "\x7d"]

/-- The declarations of `closingSource`. -/
def closingUnit : SourceUnit :=
  { types := [{
      name := "A", namespaceName := "Global", comments := ["/// <summary>Ends with */ here</summary>"] }] }

/-- The comment for `closingSource` ends in the middle of its only line. -/
theorem not_isCommentBlock_closingSource :
    Source.unit? {} closingSource = some closingUnit ∧
      ∃ entry ∈ entries (translator {} (.ofUnits [closingUnit])) (.ofUnits [closingUnit]),
        entry.remarks = ["Ends with */ here"] ∧
          ¬ IsCommentBlock entry.indent (commentText entry.indent entry.remarks) := by
  have htokens : Token.ofSource? closingSource.toList = some closingTokens := by decide +kernel
  have hsource : Source.unit? {} closingSource = some closingUnit := by
    rw [Source.unit?, Source.items?_of_tokens htokens]
    rfl
  let entry : Entry :=
    { indent := "  ", documentation := ["Ends with */ here"], code := "export interface A \x7b" }
  have hmem : entry ∈ entries (translator {} (.ofUnits [closingUnit])) (.ofUnits [closingUnit]) := by
    decide +kernel
  have hiff := (isCommentBlock_iff (List.all_eq_true.1 (by decide)) ⟨by decide, by decide⟩
    (List.forall_mem_singleton.2 ⟨closingSource, hsource⟩)).2 entry hmem
  refine ⟨hsource, entry, hmem, rfl, fun hblock => ?_⟩
  exact (hiff.1 hblock).1 _ List.mem_cons_self (by decide)

end Output

end TypeBridge
