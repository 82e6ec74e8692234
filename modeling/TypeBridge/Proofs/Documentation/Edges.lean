import TypeBridge.Output.Comment
import TypeBridge.Proofs.Documentation.Element
import TypeBridge.Proofs.Documentation.Flattening

/-!
# The edges of documentation

Neither the remarks nor the summary of a structured comment begin or end with a blank line, and the same holds of a
block comment. A line comment is one line of the summary as it is, even when it has no text. So a summary has blank
lines at its ends exactly when such a comment is the first or the last one that says anything.

Results:
* `plainLines_cases`: what a comment says that is not structured.
* `isTrimmed_block`: the edges of a block.
* `isEmpty_of_isTextless`, `lines_eq_nil_iff`: comments without text, and what is written for them.
* `summary_lineComments`, `summary_blockComment`: the two ways of writing a text.
* `blank_edges_iff`: the exact conditions.
-/
namespace TypeBridge.Documentation

open Text

/-! ## Comments that are not structured -/

/-- What it means that a line comment has no text: it is made of slashes. -/
def IsEmptyLineComment (comment : String) : Prop := ∀ c ∈ trim comment.toList, c = '/'

instance : DecidablePred IsEmptyLineComment := fun _ => List.decidableBAll _ _

/-- What comments say that are not structured: an empty line comment says one blank line, and of the lines of any
other comment the first and the last one are not blank. -/
theorem plainLines_cases (comment : String) :
    (IsEmptyLineComment comment ∧ plainLines comment.toList = [[]]) ∨
      (¬ IsEmptyLineComment comment ∧ IsTrimmed isBlankText (plainLines comment.toList)) := by
  unfold plainLines IsEmptyLineComment
  split
  · rename_i body htrim
    refine .inr ⟨fun h => ?_, isTrimmed_trimEdges isBlankText _⟩
    exact absurd (h '*' (by simp [htrim])) (by decide)
  · by_cases hslash : ∀ c ∈ trim comment.toList, c = '/'
    · have hnil : (trim comment.toList).dropWhile (· == '/') = [] :=
        List.dropWhile_eq_nil_iff.2 fun c hc => beq_iff_eq.2 (hslash c hc)
      exact .inl ⟨hslash, by rw [hnil]; rfl⟩
    · refine .inr ⟨hslash, isTrimmed_singleton.2 ?_⟩
      have hne : (trim comment.toList).dropWhile (· == '/') ≠ [] := fun hnil =>
        hslash fun c hc => beq_iff_eq.1 (List.dropWhile_eq_nil_iff.1 hnil c hc)
      -- The last character of the comment is not blank, and it is not one of the slashes.
      obtain ⟨c, hc, hblank⟩ :=
        (isTrimmed_trimEdges isBlank comment.toList).exists_of_suffix (List.dropWhile_suffix (· == '/')) hne
      rw [isBlankText_trim, Bool.eq_false_iff, ne_eq, List.isEmpty_iff, trim_eq_nil_iff, isBlankText, List.all_eq_true]
      exact fun hall => Bool.noConfusion ((hall c hc).symm.trans hblank)

/-- The comments that say something; a block comment may have no text. -/
def saying (comments : List String) : List String := comments.filter fun comment => !(plainLines comment.toList).isEmpty

/-- What it means that neither the first nor the last comment that says something is an empty line comment. -/
structure HasTextAtEnds (comments : List String) : Prop where
  first : ∀ comment ∈ (saying comments).head?, ¬ IsEmptyLineComment comment
  last : ∀ comment ∈ (saying comments).getLast?, ¬ IsEmptyLineComment comment

theorem flatMap_saying (comments : List String) :
    (saying comments).flatMap (fun comment => plainLines comment.toList) =
      comments.flatMap fun comment => plainLines comment.toList := by
  induction comments with
  | nil => rfl
  | cons comment comments ih =>
    rw [saying, List.filter_cons, List.flatMap_cons, ← ih]
    split
    · rfl
    · rename_i h
      have hnil : plainLines comment.toList = [] := by simpa using h
      rw [hnil]
      rfl

/-- The first and the last line of a comment are blank only if it is an empty line comment. -/
theorem edges_plainLines_iff (comment : String) :
    ((∀ line ∈ (plainLines comment.toList).head?, isBlankText line = false) ↔ ¬ IsEmptyLineComment comment) ∧
      ((∀ line ∈ (plainLines comment.toList).getLast?, isBlankText line = false) ↔ ¬ IsEmptyLineComment comment) := by
  rcases plainLines_cases comment with ⟨hempty, hlines⟩ | ⟨hempty, hlines⟩
  · simp [hlines, hempty, isBlankText]
  · exact ⟨iff_of_true hlines.first hempty, iff_of_true hlines.last hempty⟩

theorem isTrimmed_plain_iff (comments : List String) :
    IsTrimmed isBlankText (comments.flatMap fun comment => plainLines comment.toList) ↔ HasTextAtEnds comments := by
  have hne : ∀ comment ∈ saying comments, plainLines comment.toList ≠ [] := by
    intro comment hcomment
    simpa using (List.mem_filter.1 hcomment).2
  rw [← flatMap_saying, isTrimmed_flatMap_iff hne]
  simp only [(edges_plainLines_iff _).1, (edges_plainLines_iff _).2]
  exact ⟨fun ⟨hfirst, hlast⟩ => ⟨hfirst, hlast⟩, fun ⟨hfirst, hlast⟩ => ⟨hfirst, hlast⟩⟩

/-! ## Blocks -/

/-- Whether a line of documentation is blank. -/
def isBlankLine (line : String) : Bool := isBlankText line.toList

theorem map_ofList_inj {ls ls' : List (List Char)} : ls.map String.ofList = ls'.map String.ofList ↔ ls = ls' :=
  List.map_inj_right fun _ _ h => String.ofList_injective h

theorem isTrimmed_ofList_iff {ls : List (List Char)} :
    IsTrimmed isBlankLine (ls.map .ofList) ↔ IsTrimmed isBlankText ls := by
  have hblank : isBlankLine ∘ String.ofList = isBlankText := funext fun line => by simp [isBlankLine]
  rw [isTrimmed_map, hblank]

/-- What it means that some line of the comments is that of a structured comment. -/
def HasStructured (comments : List String) : Prop :=
  ∃ comment ∈ comments, ∃ line ∈ lines comment.toList, isStructured line = true

instance : DecidablePred HasStructured := fun comments =>
  inferInstanceAs (Decidable (∃ comment ∈ comments, ∃ line ∈ lines comment.toList, isStructured line = true))

theorem structured_eq_nil_iff {comments : List String} :
    (comments.flatMap fun comment => lines comment.toList).filter isStructured = [] ↔ ¬ HasStructured comments := by
  rw [List.filter_eq_nil_iff, HasStructured]
  simp only [List.mem_flatMap]
  grind

/-- The text of a structured comment. -/
def structuredText (comments : List String) : List Char :=
  joinLines (((comments.flatMap fun comment => lines comment.toList).filter isStructured).map dropMark)

theorem ofComments?_of_structured (options : Options) {comments : List String} (h : HasStructured comments) :
    ofComments? options comments = some (ofStructured options (structuredText comments)) := by
  have hne : comments ≠ [] := List.ne_nil_of_mem h.choose_spec.1
  have hsome := mt structured_eq_nil_iff.1 (not_not_intro h)
  rw [ofComments?, if_neg (by simpa using hne)]
  simp only [structuredText]
  rw [if_neg (by simpa using hsome)]

theorem ofComments?_of_plain (options : Options) {comments : List String} (hne : comments ≠ [])
    (h : ¬ HasStructured comments) : ofComments? options comments = some {
      summary := (comments.flatMap fun comment => plainLines comment.toList).map .ofList
      remarksIntroduction := options.remarksIntroduction } := by
  rw [ofComments?, if_neg (by simpa using hne)]
  simp only
  rw [structured_eq_nil_iff.2 h, if_pos List.isEmpty_nil, List.map_flatMap]

theorem isSome_ofComments? (options : Options) {comments : List String} (hne : comments ≠ []) :
    (ofComments? options comments).isSome = true := by
  by_cases h : HasStructured comments
  · rw [ofComments?_of_structured options h]
    rfl
  · rw [ofComments?_of_plain options hne h]
    rfl

theorem isTrimmed_flatten (s : List Char) : IsTrimmed isBlankText (flatten s) := isTrimmed_trimEdges isBlankText _

theorem isTrimmed_ofStructured (options : Options) (s : List Char) :
    IsTrimmed isBlankLine (ofStructured options s).summary ∧
      IsTrimmed isBlankLine (ofStructured options s).remarks := by
  constructor
  · refine isTrimmed_ofList_iff.2 ?_
    split
    · exact isTrimmed_flatten _
    · split
      · exact isTrimmed_nil
      · exact isTrimmed_flatten _
  · refine isTrimmed_ofList_iff.2 ?_
    split
    · split
      · exact isTrimmed_nil
      · exact isTrimmed_flatten _
    · exact isTrimmed_nil

/-- The edges of a block: only an empty line comment makes one of them blank, and only that of a summary. -/
theorem isTrimmed_block {options : Options} {comments : List String} {block : Block}
    (h : ofComments? options comments = some block) :
    IsTrimmed isBlankLine block.remarks ∧
      (IsTrimmed isBlankLine block.summary ↔ HasStructured comments ∨ HasTextAtEnds comments) := by
  by_cases hstructured : HasStructured comments
  · obtain rfl := Option.some.inj ((ofComments?_of_structured options hstructured).symm.trans h)
    obtain ⟨hsummary, hremarks⟩ := isTrimmed_ofStructured options (structuredText comments)
    exact ⟨hremarks, iff_of_true hsummary (.inl hstructured)⟩
  · have hne : comments ≠ [] := by
      rintro rfl
      cases h
    obtain rfl := Option.some.inj ((ofComments?_of_plain options hne hstructured).symm.trans h)
    refine ⟨isTrimmed_nil, ?_⟩
    rw [isTrimmed_ofList_iff, isTrimmed_plain_iff, or_iff_right hstructured]

/-! ## Comments without text -/

/-- The forms of a comment that has no text: slashes, the mark of a structured comment with blanks after it, and a
block comment in whose lines nothing but a star stands. -/
inductive IsTextless : String → Prop
  | line {comment : String} : IsEmptyLineComment comment → ¬ HasStructured [comment] → IsTextless comment
  | structured {blanks : List Char} : isBlankText blanks = true → IsSingleLine blanks →
    IsTextless (.ofList ('/' :: '/' :: '/' :: blanks))
  | block {body : List Char} : (∀ line ∈ lines body, trim line = [] ∨ trim line = ['*']) →
    IsTextless (.ofList ('/' :: '*' :: (body ++ ['*', '/'])))

theorem isBlankText_of_subset {s t : List Char} (h : isBlankText t = true) (hst : s ⊆ t) : isBlankText s = true :=
  List.all_eq_true.2 fun c hc => List.all_eq_true.1 h c (hst hc)

theorem plainLines_block (body : List Char) : plainLines ('/' :: '*' :: (body ++ ['*', '/'])) =
    trimBlankLines ((lines body).map fun line => dropStar (trim line)) := by
  have hparts : trim ('/' :: '*' :: (body ++ ['*', '/'])) = '/' :: '*' :: (body ++ ['*', '/']) :=
    trimEdges_eq_self ⟨by simp [isBlank], by simp [List.getLast?_cons, List.getLast?_append, isBlank]⟩
  unfold plainLines
  rw [hparts]
  simp

theorem plainLines_textless {body : List Char} (h : ∀ line ∈ lines body, trim line = [] ∨ trim line = ['*']) :
    plainLines ('/' :: '*' :: (body ++ ['*', '/'])) = [] := by
  rw [plainLines_block, trimBlankLines_eq_trimEdges, trimEdges_eq_nil_iff, List.forall_mem_map]
  intro line hline
  rcases h line hline with hempty | hstar
  · rw [hempty]
    rfl
  · rw [hstar]
    rfl

/-- A block comment without text has two slashes only, and the mark of a structured comment has three. -/
theorem not_isStructured_textless {body : List Char} (h : ∀ line ∈ lines body, trim line = [] ∨ trim line = ['*'])
    {line : List Char} (hline : line ∈ lines ('/' :: '*' :: (body ++ ['*', '/']))) : isStructured line = false := by
  have hbody : '/' ∉ body := by
    intro hmem
    obtain ⟨part, hpart, hslash⟩ := exists_mem_lines hmem (by decide)
    have htrim : '/' ∈ trim part := ((respaced_trim part).mem_iff (by decide)).2 hslash
    rcases h part hpart with hempty | hstar
    · rw [hempty] at htrim
      cases htrim
    · rw [hstar] at htrim
      exact absurd htrim (by decide)
  rw [isStructured, Option.isSome_eq_false_iff, Option.isNone_iff_eq_none]
  cases hdrop : dropStart? ['/', '/', '/'] (trimStart line) with
  | none => rfl
  | some rest =>
    have hstart : ['/', '/', '/'].Sublist line := by
      refine List.Sublist.trans ?_ (List.dropWhile_sublist isBlank)
      rw [← trimStart, eq_append_of_dropStart? hdrop]
      exact List.sublist_append_left _ _
    have hcount := (hstart.trans (sublist_of_mem_lines hline)).count_le '/'
    simp [List.count_eq_zero.2 hbody] at hcount

theorem lines_structured {blanks : List Char} (h : IsSingleLine blanks) :
    lines ('/' :: '/' :: '/' :: blanks) = ['/' :: '/' :: '/' :: blanks] := by
  refine lines_eq_singleton ?_ (List.cons_ne_nil _ _)
  simpa [IsSingleLine, isLineBreak] using h

/-- The one line of a structured comment without text is blank without its mark. -/
theorem isBlankText_dropMark {blanks : List Char} (h : isBlankText blanks = true) :
    isBlankText (dropMark ('/' :: '/' :: '/' :: blanks)) = true := by
  cases blanks with
  | nil => rfl
  | cons c r =>
    rw [isBlankText, List.all_cons, Bool.and_eq_true] at h
    have hdrop : dropMark ('/' :: '/' :: '/' :: c :: r) = if isBlank c then r else c :: r := rfl
    rw [hdrop, if_pos h.1]
    exact h.2

theorem isBlankText_structuredText {comments : List String} (h : ∀ comment ∈ comments, IsTextless comment) :
    isBlankText (structuredText comments) = true := by
  refine List.all_eq_true.2 fun c hc => ?_
  rcases mem_joinLines hc with rfl | ⟨_, hline, hmem⟩
  · rfl
  · obtain ⟨line, hkept, rfl⟩ := List.mem_map.1 hline
    obtain ⟨hin, hstructured⟩ := List.mem_filter.1 hkept
    obtain ⟨comment, hcomment, hline⟩ := List.mem_flatMap.1 hin
    cases h comment hcomment with
    | line _ hnot => exact absurd ⟨_, List.mem_cons_self, line, hline, hstructured⟩ hnot
    | @structured blanks hblanks hsingle =>
      rw [String.toList_ofList, lines_structured hsingle, List.mem_singleton] at hline
      rw [hline] at hmem
      exact List.all_eq_true.1 (isBlankText_dropMark hblanks) c hmem
    | block hbody =>
      rw [String.toList_ofList] at hline
      rw [not_isStructured_textless hbody hline] at hstructured
      cases hstructured

theorem flatten_of_isBlankText {s : List Char} (h : isBlankText s = true) : flatten s = [] := by
  have hreference : '&' ∉ withoutTags s := fun hmem =>
    not_mem_of_isBlankText h (by decide) (withoutTags_subset s hmem)
  rw [flatten_eq, resolveReferences_eq_self hreference, textLines, trimBlankLines_eq_trimEdges, trimEdges_eq_nil_iff,
    List.forall_mem_map]
  intro line hline
  have hsublist := (sublist_trimEdges isBlank line).trans (sublist_of_mem_lines hline)
  exact isBlankText_of_subset h (List.Subset.trans hsublist.subset (withoutTags_subset s))

theorem isEmpty_ofStructured (options : Options) {s : List Char} (h : isBlankText s = true) :
    (ofStructured options s).isEmpty = true := by
  have hmark : '<' ∉ s := not_mem_of_isBlankText h (by decide)
  have helements (name : String) (hname : IsElementName name.toList) : elements name s = [] :=
    elements_of_not_opens hname (opens_of_not_mem name hmark)
  simp [ofStructured, Block.isEmpty, helements "summary" ⟨by decide, by decide⟩,
    helements "remarks" ⟨by decide, by decide⟩, helements "code" ⟨by decide, by decide⟩, hasTag_of_not_mem hmark,
    flatten_of_isBlankText h]

/-- Comments without text make an empty block if one of them is structured, or none is a line comment. -/
theorem isEmpty_of_isTextless {options : Options} {comments : List String} {block : Block}
    (h : ∀ comment ∈ comments, IsTextless comment) (hblock : ofComments? options comments = some block) :
    block.isEmpty = true ↔ HasStructured comments ∨ ∀ comment ∈ comments, ¬ IsEmptyLineComment comment := by
  by_cases hstructured : HasStructured comments
  · obtain rfl := Option.some.inj ((ofComments?_of_structured options hstructured).symm.trans hblock)
    exact iff_of_true (isEmpty_ofStructured options (isBlankText_structuredText h)) (.inl hstructured)
  · have hne : comments ≠ [] := by
      rintro rfl
      cases hblock
    obtain rfl := Option.some.inj ((ofComments?_of_plain options hne hstructured).symm.trans hblock)
    rw [or_iff_right hstructured]
    have hempty (comment : String) (hcomment : comment ∈ comments) :
        plainLines comment.toList = [] ↔ ¬ IsEmptyLineComment comment := by
      rcases plainLines_cases comment with ⟨hline, hlines⟩ | ⟨hline, hlines⟩
      · simp [hlines, hline]
      · refine iff_of_true ?_ hline
        cases h comment hcomment with
        | line hslashes => exact absurd hslashes hline
        | @structured blanks _ hsingle =>
          refine absurd ⟨_, hcomment, '/' :: '/' :: '/' :: blanks, ?_, rfl⟩ hstructured
          rw [String.toList_ofList, lines_structured hsingle]
          exact List.mem_cons_self
        | block hbody =>
          rw [String.toList_ofList]
          exact plainLines_textless hbody
    simpa [Block.isEmpty, List.flatMap_eq_nil_iff] using forall₂_congr hempty

theorem addParagraph_ne_nil (before : List String) {paragraph : List String} (h : paragraph ≠ []) :
    addParagraph before paragraph ≠ [] :=
  List.append_ne_nil_of_right_ne_nil _ h

/-- Only an empty block has no lines. -/
theorem lines_eq_nil_iff {block : Block} : block.lines = [] ↔ block.isEmpty = true := by
  have hsaid : block.codeSamples.foldl (fun said sample => addParagraph said sample.fenced) block.summary = [] ↔
      block.summary = [] ∧ block.codeSamples = [] := by
    rcases List.eq_nil_or_concat' block.codeSamples with h | ⟨before, sample, h⟩
    · simp [h]
    · rw [h, List.foldl_append]
      exact iff_of_false (addParagraph_ne_nil _ (List.cons_ne_nil _ _)) (by simp)
  simp only [Block.lines, Block.isEmpty, Bool.and_eq_true, List.isEmpty_iff]
  split
  · rename_i hremarks
    simp [hsaid, hremarks]
  · rename_i hremarks
    exact iff_of_false (addParagraph_ne_nil _ (List.cons_ne_nil _ _)) fun h => hremarks h.2

theorem commentUnlessEmpty_eq_nil_iff {indent : String} {ls : List String} :
    Output.commentUnlessEmpty indent ls = [] ↔ ls = [] := by
  cases ls <;> simp [Output.commentUnlessEmpty, Output.comment]

/-! ## Two ways of writing -/

/-- The summary of the comments before a declaration. -/
def summaryOf (options : Options) (comments : List String) : List String :=
  ((ofComments? options comments).map (·.summary)).getD []

/-- A text as line comments, one for each line. -/
def lineComments (ls : List (List Char)) : List String := ls.map fun line => .ofList ("// ".toList ++ line)

/-- A text as a block comment, each line behind a star. -/
def blockComment (ls : List (List Char)) : String :=
  .ofList (joinLines ("/*".toList :: ls.map (" * ".toList ++ ·) ++ [" */".toList]))

theorem trim_cons_of_not_isBlank {c : Char} (h : isBlank c = false) (s : List Char) :
    trim (c :: s) = c :: trimEnd s := by
  have hstart : trimStart (c :: s) = c :: s := List.dropWhile_cons_of_neg (Bool.eq_false_iff.1 h)
  rw [trim, hstart, trimEnd_cons_of_not_isBlank h]

theorem plainLines_lineComment (line : List Char) : plainLines ('/' :: '/' :: ' ' :: line) = [trim line] := by
  have htrim : trim ('/' :: '/' :: ' ' :: line) = '/' :: '/' :: trimEnd (' ' :: line) := by
    rw [trim_cons_of_not_isBlank (by decide), trimEnd_cons_of_not_isBlank (by decide)]
  have hslashes : (trimEnd (' ' :: line)).dropWhile (· == '/') = trimEnd (' ' :: line) := by
    rcases List.prefix_cons_iff.1 (prefix_trimEnd (' ' :: line)) with hnil | ⟨rest, hrest, -⟩
    · rw [hnil]
      rfl
    · rw [hrest]
      rfl
  have hlines : plainLines ('/' :: '/' :: ' ' :: line) = [trim ((trimEnd (' ' :: line)).dropWhile (· == '/'))] := by
    rw [plainLines, htrim]
    rfl
  rw [hlines, hslashes, trim_trimEnd, trim_cons_of_isBlank rfl]

theorem dropStar_line (line : List Char) : dropStar (trim (" * ".toList ++ line)) = trim line := by
  have htrim : trim (" * ".toList ++ line) = '*' :: trimEnd (' ' :: line) :=
    (trim_cons_of_isBlank rfl _).trans (trim_cons_of_not_isBlank rfl _)
  rw [htrim, dropStar, trim_trimEnd, trim_cons_of_isBlank rfl]

/-- The lines of a text as a summary. -/
theorem summary_lineComments (options : Options) {ls : List (List Char)} (h : ∀ line ∈ ls, IsSingleLine line) :
    summaryOf options (lineComments ls) = (ls.map trim).map .ofList := by
  by_cases hne : lineComments ls = []
  · rw [List.map_eq_nil_iff.1 hne]
    rfl
  · have hnot : ¬ HasStructured (lineComments ls) := by
      rintro ⟨_, hcomment, line, hline, hstructured⟩
      obtain ⟨text, htext, rfl⟩ := List.mem_map.1 hcomment
      have hsingle : IsSingleLine ("// ".toList ++ text) := by
        simpa [IsSingleLine, isLineBreak] using h text htext
      rw [String.toList_ofList, lines_eq_singleton hsingle (by simp), List.mem_singleton] at hline
      rw [hline] at hstructured
      cases hstructured
    have hlines : (lineComments ls).flatMap (fun comment => plainLines comment.toList) = ls.map trim := by
      rw [lineComments, List.flatMap_map, List.map_eq_flatMap]
      refine List.flatMap_congr fun line _ => ?_
      rw [String.toList_ofList]
      exact plainLines_lineComment line
    rw [summaryOf, ofComments?_of_plain options hne hnot, hlines]
    rfl

/-- The same without the blank lines at the beginning and at the end. -/
theorem summary_blockComment (options : Options) {ls : List (List Char)} (h : ∀ line ∈ ls, IsSingleLine line) :
    summaryOf options [blockComment ls] = (trimBlankLines (ls.map trim)).map .ofList := by
  have hsingle : ∀ line ∈ ls.map (" * ".toList ++ ·), IsSingleLine line := by
    rw [List.forall_mem_map]
    intro line hline
    simpa [IsSingleLine, isLineBreak] using h line hline
  have hnot : ¬ HasStructured [blockComment ls] := by
    rintro ⟨_, hcomment, line, hline, hstructured⟩
    rw [List.mem_singleton.1 hcomment, blockComment, String.toList_ofList,
      lines_joinLines_concat (List.forall_mem_cons.2 ⟨by decide, hsingle⟩), List.mem_append, List.mem_cons,
      List.mem_map] at hline
    rcases hline with (rfl | ⟨line, -, rfl⟩) | hline
    · cases hstructured
    · cases hstructured
    · rw [List.mem_singleton.1 hline] at hstructured
      cases hstructured
  have hparts : joinLines ("/*".toList :: ls.map (" * ".toList ++ ·) ++ [" */".toList]) =
      '/' :: '*' :: (joinLines ([] :: ls.map (" * ".toList ++ ·) ++ [[' ']]) ++ ['*', '/']) := by
    rw [joinLines_concat (List.cons_ne_nil _ _), joinLines_concat (List.cons_ne_nil _ _),
      ← List.append_nil "/*".toList, joinLines_append]
    simp
  have hlines : plainLines (blockComment ls).toList = trimBlankLines (ls.map trim) := by
    rw [blockComment, String.toList_ofList, hparts, plainLines_block,
      lines_joinLines_concat (List.forall_mem_cons.2 ⟨by decide, hsingle⟩), List.map_append, List.map_cons,
      List.map_map]
    have hmap : (fun line => dropStar (trim line)) ∘ (" * ".toList ++ ·) = trim := funext dropStar_line
    rw [hmap]
    exact (trimEdges_concat (p := isBlankText) rfl _).trans (trimEdges_cons rfl _)
  rw [summaryOf, ofComments?_of_plain options (List.cons_ne_nil _ _) hnot, List.flatMap_singleton, hlines]
  rfl

theorem isBlankText_comp_trim : isBlankText ∘ trim = isBlankText := by
  funext s
  rw [Function.comp_apply, Bool.eq_iff_iff, isBlankText_trim, List.isEmpty_iff, trim_eq_nil_iff]

theorem summary_eq_iff (options : Options) {ls : List (List Char)} (h : ∀ line ∈ ls, IsSingleLine line) :
    summaryOf options (lineComments ls) = summaryOf options [blockComment ls] ↔ IsTrimmed isBlankText ls := by
  rw [summary_lineComments options h, summary_blockComment options h,
    map_ofList_inj, eq_comm, trimBlankLines_eq_trimEdges,
    trimEdges_eq_self_iff, isTrimmed_map, isBlankText_comp_trim]

/-! ## The exact conditions -/

/-- The remarks of a block have no blank line at their ends, and the summary has none unless the first or the last
comment that says anything is a line comment without text, and no comment is structured. Comments that all have no
text make an empty block, for which no comment is written, unless one of them is such a line comment and none is
structured. A text of some lines has the same summary as line comments and as a block comment exactly when its first
and its last line are not blank. -/
theorem blank_edges_iff (options : Options) :
    (∀ comments block, ofComments? options comments = some block →
      IsTrimmed isBlankLine block.remarks ∧
        (IsTrimmed isBlankLine block.summary ↔ HasStructured comments ∨ HasTextAtEnds comments)) ∧
    (∀ comments, comments ≠ [] → (∀ comment ∈ comments, IsTextless comment) →
      ∃ block, ofComments? options comments = some block ∧
        (block.isEmpty = true ↔ HasStructured comments ∨ ∀ comment ∈ comments, ¬ IsEmptyLineComment comment) ∧
        ∀ indent, Output.commentUnlessEmpty indent (Output.documentation options comments) = [] ↔
          block.isEmpty = true) ∧
    ∀ ls, (∀ line ∈ ls, IsSingleLine line) →
      (summaryOf options (lineComments ls) = summaryOf options [blockComment ls] ↔ IsTrimmed isBlankText ls) := by
  refine ⟨fun comments block => isTrimmed_block, fun comments hne htextless => ?_, fun ls => summary_eq_iff options⟩
  obtain ⟨block, hblock⟩ := Option.isSome_iff_exists.1 (isSome_ofComments? options hne)
  refine ⟨block, hblock, isEmpty_of_isTextless htextless hblock, fun indent => ?_⟩
  rw [commentUnlessEmpty_eq_nil_iff, Output.documentation, hblock]
  exact lines_eq_nil_iff

/-- A line comment without text has a blank line as its summary, and a comment is written for it. -/
theorem blank_edges_slashes :
    ofComments? {} ["//"] = some { summary := [""] } ∧ ¬ IsTrimmed isBlankLine [""] ∧
      Output.commentUnlessEmpty "" (Output.documentation {} ["//"]) ≠ [] ∧
      summaryOf {} (lineComments [[], ['a']]) ≠ summaryOf {} [blockComment [[], ['a']]] := by
  obtain ⟨hedges, htextless, hways⟩ := blank_edges_iff {}
  have hblock : ofComments? {} ["//"] = some { summary := [""] } := by decide
  have hline : IsEmptyLineComment "//" := by decide
  have hstructured : ¬ HasStructured ["//"] := by decide
  have hends : ¬ HasTextAtEnds ["//"] := fun h => h.first "//" (by decide) hline
  obtain ⟨block, hsome, hempty, hwritten⟩ :=
    htextless ["//"] (by decide) (List.forall_mem_singleton.2 (.line hline hstructured))
  refine ⟨hblock, fun h => ?_, fun h => ?_, fun h => ?_⟩
  · exact ((hedges _ _ hblock).2.1 h).elim hstructured hends
  · exact (hempty.1 ((hwritten "").1 h)).elim hstructured fun hnot => hnot "//" List.mem_cons_self hline
  · have htrimmed := (hways [[], ['a']] (by decide)).1 h
    exact Bool.noConfusion (htrimmed.first [] rfl)

end TypeBridge.Documentation
