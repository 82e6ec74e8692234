import TypeBridge.Proofs.Documentation.Edges
import TypeBridge.Proofs.Documentation.Sample

/-!
# The text in code samples

Each sample of a structured comment is a sample of its block, and nothing that is written in it has a part in the
remarks. It does have a part in the summary when the sample stands there: its tags are taken out like all others, and
its text stays between them.

Results:
* `remarks_write`, `summary_write`: the sections of a block.
* `SameOutside.remarks_eq`, `SameOutside.summary_eq`: what other texts in the samples do not change.
* `length_visible_fill`: what they do change in a section where they stand.
* `samples_apart_iff`: the exact conditions.
-/
namespace TypeBridge.Documentation

open Text

/-! ## Sections of a block -/

theorem hasTag_append {s t : List Char} (h : hasTag t = true) : hasTag (s ++ t) = true := by
  induction s with
  | nil => exact h
  | cons c s ih => rw [List.cons_append, hasTag, ih, Bool.or_true]

theorem hasTag_write {document : Document} (h : document.samples ≠ []) : hasTag document.write = true := by
  cases document with
  | text s => exact absurd rfl h
  | code before sample rest =>
    have htag : findTag (sample.write ++ rest.write) ≠ none := by
      simp only [Sample.write, openingTag, List.cons_append, List.append_assoc]
      exact findTag_ne_none (by decide) (by simp)
    refine hasTag_append ?_
    cases hwrite : sample.write ++ rest.write with
    | nil => simp [Sample.write, openingTag] at hwrite
    | cons c s =>
      rw [hwrite] at htag
      rw [hasTag, Option.isSome_iff_ne_none.2 htag, Bool.true_or]

theorem remarks_write (options : Options) {document : Document} (h : document.IsMarkedUp) :
    (ofStructured options document.write).remarks = ((document.section? "remarks").elim []
      fun content => if content.samples.isEmpty then flatten content.write else []).map .ofList := by
  simp only [ofStructured]
  rw [head?_elements, element?_write h (by decide)]
  cases hcontent : document.section? "remarks" with
  | none => rfl
  | some content =>
    simp only [Option.map_some, Option.elim_some]
    rw [opens_write (h.section? (by decide) hcontent)]
    cases content.samples.isEmpty <;> rfl

theorem summary_write (options : Options) {document : Document} (h : document.IsMarkedUp) :
    (ofStructured options document.write).summary = ((document.section? "summary").elim
      (if hasTag document.write then [] else flatten document.write) fun content => flatten content.write).map
        .ofList := by
  simp only [ofStructured]
  rw [head?_elements, element?_write h (by decide)]
  cases document.section? "summary" <;> rfl

/-- What is written in samples has no part in the remarks. -/
theorem SameOutside.remarks_eq {document document' : Document} (h : SameOutside document document')
    (hdocument : document.IsMarkedUp) (hdocument' : document'.IsMarkedUp) (options : Options) :
    (ofStructured options document'.write).remarks = (ofStructured options document.write).remarks := by
  rw [remarks_write options hdocument, remarks_write options hdocument']
  have hsection := h.section? "remarks"
  generalize document.section? "remarks" = content at hsection ⊢
  generalize document'.section? "remarks" = content' at hsection ⊢
  cases hsection with
  | none => rfl
  | @some content content' hsame =>
    rw [Option.elim_some, Option.elim_some, hsame.isEmpty_samples]
    split
    · rename_i hempty
      rw [hsame.eq_of_samples_eq_nil (List.isEmpty_iff.1 hempty)]
    · rfl

/-- It has no part in the summary either when no sample stands there. -/
theorem SameOutside.summary_eq {document document' : Document} (h : SameOutside document document')
    (hdocument : document.IsMarkedUp) (hdocument' : document'.IsMarkedUp)
    (hempty : ∀ content ∈ document.section? "summary", content.samples = []) (options : Options) :
    (ofStructured options document'.write).summary = (ofStructured options document.write).summary := by
  rw [summary_write options hdocument, summary_write options hdocument']
  have hsection := h.section? "summary"
  generalize document.section? "summary" = content at hsection hempty ⊢
  generalize document'.section? "summary" = content' at hsection ⊢
  cases hsection with
  | none =>
    by_cases hsamples : document.samples = []
    · rw [h.eq_of_samples_eq_nil hsamples]
    · have hsamples' : document'.samples ≠ [] := by
        rwa [ne_eq, ← List.isEmpty_iff, h.isEmpty_samples, List.isEmpty_iff]
      simp only [hasTag_write hsamples, hasTag_write hsamples']
      rfl
  | @some content content' hsame =>
    rw [Option.elim_some, Option.elim_some, hsame.eq_of_samples_eq_nil (hempty content rfl)]

/-! ## Text in samples -/

/-- A document with some text in all of its samples. -/
def Document.fill (content : List Char) : Document → Document
  | .text s => .text s
  | .code before sample rest => .code before { sample with content := content } (rest.fill content)

theorem sameOutside_fill (content : List Char) (document : Document) :
    SameOutside document (document.fill content) := by
  induction document with
  | text s => exact .text s
  | code before sample rest ih => exact .code before rfl rfl ih

theorem Document.IsMarkedUp.fill {document : Document} (h : document.IsMarkedUp) {content : List Char}
    (hcontent : '<' ∉ content) : (document.fill content).IsMarkedUp := by
  have hsilent (name : String) := isSilent_of_not_mem name hcontent
  induction document with
  | text s => exact h
  | code before sample rest ih =>
    obtain ⟨hbefore, hsample, hrest⟩ := h
    exact ⟨hbefore, ⟨⟨hsample.attributes, hsilent "code", hsample.blanks⟩, hsample.opening, fun name _ => hsilent name⟩,
      ih hrest⟩

theorem Document.after?_fill (name content : List Char) (document : Document) :
    (document.fill content).after? name = (document.after? name).map (·.fill content) := by
  induction document with
  | text s =>
    rw [Document.fill, Document.after?, Option.map_map]
    rfl
  | code before sample rest ih =>
    rw [Document.fill, Document.after?, Document.after?, ih]
    cases opening? name before <;> rfl

theorem Document.until?_fill (name content : List Char) (document : Document) :
    (document.fill content).until? name = (document.until? name).map (·.fill content) := by
  induction document with
  | text s =>
    rw [Document.fill, Document.until?, Option.map_map]
    rfl
  | code before sample rest ih =>
    rw [Document.fill, Document.until?, Document.until?, ih]
    cases untilClosing? name before with
    | some found => rfl
    | none =>
      simp only [Option.map_map]
      rfl

theorem Document.section?_fill (name : String) (content : List Char) (document : Document) :
    (document.fill content).section? name = (document.section? name).map (·.fill content) := by
  rw [Document.section?, Document.after?_fill, Document.section?]
  cases document.after? name.toList with
  | none => rfl
  | some after => exact after.until?_fill name.toList content

/-- The tags of a sample are taken out, and its text stays. -/
theorem withoutTags_write {sample : Sample} (h : sample.IsMarkedUp) (hcontent : '<' ∉ sample.content) (s : List Char) :
    withoutTags (sample.write ++ s) = sample.content ++ withoutTags s := by
  have hparts : sample.write ++ s = '<' :: ("code".toList ++ sample.attributes ++ '>' :: (sample.content ++
      '<' :: ('/' :: "code".toList ++ sample.blanks ++ '>' :: s))) := by
    simp [Sample.write, openingTag, closingTag]
  have hopening : '<' ∉ sample.blanks := not_mem_of_isBlankText h.blanks (by decide)
  have hclosing : '>' ∉ sample.blanks := not_mem_of_isBlankText h.blanks (by decide)
  have hcode {name : String} (hname : name ∈ referenceNames) (s : List Char) :=
    dropStart?_code (List.mem_append_right sectionNames hname) s
  rw [hparts, withoutTags_tag (by simp) (by simp [h.opening]) (by simp [h.attributes.2]),
    withoutTags_append (isMarkup_of_not_mem hcontent), (tagFree_of_not_mem hcontent).withoutTags_eq,
    withoutTags_tag (by simp) (by simp [hopening]) (by simp [hclosing])]
  · exact fun name hname r => (hcode hname _).2
  · exact fun name hname r => by
      rw [List.append_assoc]
      exact (hcode hname _).1

/-- The characters of flattened text that are not blank. -/
def visible (s : List Char) : List Char := (resolveReferences (withoutTags s)).filter (!isBlank ·)

theorem visible_eq_filter_flatten (s : List Char) : visible s = (joinLines (flatten s)).filter (!isBlank ·) :=
  (respaced_textLines _).filter_eq.symm

theorem visible_of_not_mem {s : List Char} (hmark : '<' ∉ s) (hreference : '&' ∉ s) :
    visible s = s.filter (!isBlank ·) := by
  rw [visible, (tagFree_of_not_mem hmark).withoutTags_eq, resolveReferences_eq_self hreference]

/-- A text that is written on a line of its own in a sample. -/
def ownLine (line : List Char) : List Char := '\n' :: (line ++ ['\n'])

/-- What it means that nothing in a text is blank, a tag or a character reference. -/
structure IsPlain (line : List Char) : Prop where
  mark : '<' ∉ line
  reference : '&' ∉ line
  visible : ∀ c ∈ line, isBlank c = false

/-- What is written on a line of its own in a sample is seen between what is seen around it. -/
theorem visible_write {before line s : List Char} {sample : Sample} (hbefore : IsMarkup before)
    (hsample : sample.IsMarkedUp) (hline : IsPlain line) (hcontent : sample.content = ownLine line) :
    visible (before ++ (sample.write ++ s)) = visible before ++ (line ++ visible s) := by
  have hmark : '<' ∉ sample.content := by simp [hcontent, ownLine, hline.mark]
  have hlines : withoutTags before ++ (ownLine line ++ withoutTags s) =
      withoutTags before ++ '\n' :: (line ++ '\n' :: withoutTags s) := by simp [ownLine]
  have hfeed : isBlank '\n' = true := rfl
  rw [visible, withoutTags_append hbefore, withoutTags_write hsample hmark, hcontent, hlines, resolveReferences_append,
    resolveReferences_append, resolveReferences_eq_self hline.reference]
  have hseen : line.filter (!isBlank ·) = line := List.filter_eq_self.2 fun c hc => by simp [hline.visible c hc]
  simp only [List.filter_append, List.filter_cons, hfeed, hseen, Bool.not_true, Bool.false_eq_true, if_false]
  rfl

theorem length_visible_fill {document : Document} (h : document.IsMarkedUp) {line : List Char} (hline : IsPlain line) :
    (visible (document.fill (ownLine line)).write).length =
      (visible (document.fill (ownLine [])).write).length + document.samples.length * line.length := by
  have hempty : IsPlain [] := ⟨by simp, by simp, by simp⟩
  have hmark {line : List Char} (hline : IsPlain line) : '<' ∉ ownLine line := by simp [ownLine, hline.mark]
  induction document with
  | text s => simp [Document.fill, Document.samples]
  | code before sample rest ih =>
    have hfill {line : List Char} (hline : IsPlain line) :
        visible ((Document.code before sample rest).fill (ownLine line)).write =
          visible before ++ (line ++ visible (rest.fill (ownLine line)).write) :=
      visible_write h.1.markup (h.fill (hmark hline)).2.1 hline rfl
    have hrest := ih h.2.2
    rw [hfill hline, hfill hempty]
    simp only [List.length_append, List.length_nil, Document.samples, List.length_cons, Nat.succ_mul]
    omega

/-- A section with samples is not flattened to the same lines for all that can be written in them. -/
theorem samples_eq_nil_of_flatten_eq {document : Document} (h : document.IsMarkedUp)
    (hflatten : flatten (document.fill (ownLine ['x'])).write = flatten (document.fill (ownLine [])).write) :
    document.samples = [] := by
  have hplain : IsPlain ['x'] := ⟨by decide, by decide, List.forall_mem_singleton.2 (by decide)⟩
  have hlength := length_visible_fill h hplain
  rw [visible_eq_filter_flatten, hflatten, ← visible_eq_filter_flatten] at hlength
  simpa using hlength

/-- When no text of samples has a part in the summary, none of them stands there. -/
theorem samples_eq_nil_of_summary_eq {document : Document} (h : document.IsMarkedUp) (options : Options)
    (hsummary : ∀ other, SameOutside document other → other.IsMarkedUp →
      (ofStructured options other.write).summary = (ofStructured options document.write).summary) :
    ∀ content ∈ document.section? "summary", content.samples = [] := by
  intro content hcontent
  have hfilled (line : List Char) (hline : '<' ∉ ownLine line) :
      (flatten (content.fill (ownLine line)).write).map String.ofList =
        (ofStructured options document.write).summary := by
    have hfill := h.fill hline
    rw [← hsummary _ (sameOutside_fill _ document) hfill, summary_write options hfill, Document.section?_fill, hcontent]
    rfl
  have hlines := (hfilled ['x'] (by decide)).trans (hfilled [] (by decide)).symm
  exact samples_eq_nil_of_flatten_eq (h.section? (by decide) hcontent) (map_ofList_inj.1 hlines)

/-! ## A sample in the summary -/

/-- A text as a summary. -/
def writeSummary (content : List Char) : List Char :=
  openingTag "summary".toList [] ++ (content ++ closingTag "summary".toList [])

/-- A summary with one sample in it. -/
def summaryDocument (before content after : List Char) : Document :=
  .code (openingTag "summary".toList [] ++ before) ⟨[], content, []⟩
    (.text (after ++ closingTag "summary".toList []))

theorem isElementName_summary : IsElementName "summary".toList := ⟨by decide, by decide⟩

/-- A summary is found behind a text that opens none. -/
theorem element?_writeSummary {before content : List Char} (hbefore : opening? "summary".toList before = none)
    (hclosed : IsClosed before) (hcontent : '<' ∉ content) (after : List Char) :
    element? "summary".toList (before ++ (writeSummary content ++ after)) = some content := by
  have hmark : ∀ c ∈ (writeSummary content ++ after).head?, c = '<' := by simp [writeSummary, openingTag]
  have hopening : opening? "summary".toList (writeSummary content ++ after) =
      some (content ++ (closingTag "summary".toList [] ++ after)) := by
    rw [writeSummary, List.append_assoc, List.append_assoc, opening?_openingTag rfl (by simp)]
  rw [element?_eq isElementName_summary, opening?_append isElementName_summary (fun _ => .inl hmark) hclosed, hbefore,
    Option.map_none, Option.none_or, hopening, Option.bind_some,
    untilClosing?_content isElementName_summary (untilClosing?_of_not_mem _ hcontent) rfl]
  rfl

theorem summary_writeSummary (options : Options) {s : List Char} (h : '<' ∉ s) :
    (ofStructured options (writeSummary s)).summary = (flatten s).map .ofList := by
  have hbefore : opening? "summary".toList [] = none := rfl
  have helement := element?_writeSummary hbefore IsMarkup.nil.isClosed h []
  rw [List.nil_append, List.append_nil] at helement
  rw [ofStructured, head?_elements, helement]

/-- A sample that is a summary itself. -/
def summarySample (content : List Char) : Document := .code [] ⟨[], writeSummary content, []⟩ (.text [])

/-- A summary that is written in a sample is the summary of the comment. -/
theorem summary_summarySample (options : Options) {content : List Char} (h : '<' ∉ content) :
    (ofStructured options (summarySample content).write).summary = (flatten content).map .ofList := by
  have hlast := getLast?_openingTag "code".toList []
  have helement := element?_writeSummary (by decide) (isClosed_of_getLast? hlast) h (closingTag "code".toList [])
  rw [summarySample, Document.write, List.nil_append, Document.write, List.append_nil, Sample.write, ofStructured,
    head?_elements, helement]

theorem isBetween_of_not_mem {s : List Char} (h : '<' ∉ s) : IsBetween s :=
  ⟨opens_of_not_mem "code" h, isMarkup_of_not_mem h⟩

theorem IsBetween.append {s t : List Char} (hs : IsBetween s) (ht : IsBetween t) (h : Joint s t) : IsBetween (s ++ t) :=
  ⟨by rw [opens_append isElementName_code fun _ => h, hs.opening, ht.opening]; rfl, hs.markup.append ht.markup⟩

theorem isMarkedUp_summaryDocument {before content after : List Char} (h : '<' ∉ before ++ (content ++ after)) :
    (summaryDocument before content after).IsMarkedUp := by
  obtain ⟨hbefore, hcontent, hafter⟩ : '<' ∉ before ∧ '<' ∉ content ∧ '<' ∉ after := by simpa [not_or] using h
  have hopening : IsBetween (openingTag "summary".toList []) := ⟨by decide, .tag (by decide) .nil⟩
  have hclosing : IsBetween (closingTag "summary".toList []) := ⟨by decide, .tag (by decide) .nil⟩
  have hsilent (name : String) := isSilent_of_not_mem name hcontent
  exact ⟨hopening.append (isBetween_of_not_mem hbefore) (.inr (getLast?_openingTag _ _)),
    ⟨⟨⟨rfl, by simp⟩, hsilent "code", rfl⟩, by simp, fun name _ => hsilent name⟩,
    (isBetween_of_not_mem hafter).append hclosing (.inl (by simp [closingTag]))⟩

theorem summary_summaryDocument (options : Options) {before content after : List Char}
    (h : '<' ∉ before ++ (content ++ after)) :
    (ofStructured options (summaryDocument before content after).write).summary =
      (flatten (before ++ (content ++ after))).map .ofList := by
  have hdocument := isMarkedUp_summaryDocument h
  obtain ⟨hbefore, hcontent, hafter⟩ : '<' ∉ before ∧ '<' ∉ content ∧ '<' ∉ after := by simpa [not_or] using h
  have hsection : (summaryDocument before content after).section? "summary" =
      some (.code before ⟨[], content, []⟩ (.text after)) := by
    have hblanks : isBlankText [] = true := rfl
    have hclosing := untilClosing?_content isElementName_summary (untilClosing?_of_not_mem _ hafter) hblanks []
    rw [List.append_nil] at hclosing
    have hrest : (Document.text (after ++ closingTag "summary".toList [])).until? "summary".toList =
        some (.text after) := by
      rw [Document.until?, hclosing]
      rfl
    rw [Document.section?, summaryDocument, Document.after?, opening?_openingTag rfl (by simp)]
    simp only [Option.bind_some]
    rw [Document.until?, untilClosing?_of_not_mem _ hbefore, hrest]
    rfl
  have hflatten : flatten (Document.code before ⟨[], content, []⟩ (.text after)).write =
      flatten (before ++ (content ++ after)) := by
    rw [flatten_eq, flatten_eq, Document.write, withoutTags_append (isMarkup_of_not_mem hbefore),
      withoutTags_write hdocument.2.1 hcontent, Document.write, (tagFree_of_not_mem hbefore).withoutTags_eq,
      (tagFree_of_not_mem hafter).withoutTags_eq, (tagFree_of_not_mem h).withoutTags_eq]
  rw [summary_write options hdocument, hsection, Option.elim_some, hflatten]

/-- A sample that changes nothing in the summary where it stands is blank. -/
theorem isBlankText_of_summary_eq (options : Options) {before content after : List Char}
    (hmark : '<' ∉ before ++ (content ++ after)) (hreference : '&' ∉ before ++ (content ++ after))
    (hsummary : (flatten (before ++ (content ++ after))).map String.ofList =
      (ofStructured options (writeSummary (before ++ after))).summary) : isBlankText content = true := by
  have hmark' : '<' ∉ before ++ after := by simp_all
  have hreference' : '&' ∉ before ++ after := by simp_all
  rw [summary_writeSummary options hmark', map_ofList_inj] at hsummary
  have hvisible : visible (before ++ (content ++ after)) = visible (before ++ after) := by
    rw [visible_eq_filter_flatten, hsummary, visible_eq_filter_flatten]
  rw [visible_of_not_mem hmark hreference, visible_of_not_mem hmark' hreference'] at hvisible
  have hlength := congrArg List.length hvisible
  simp only [List.filter_append, List.length_append] at hlength
  have hcontent : content.filter (!isBlank ·) = [] := List.length_eq_zero_iff.1 (by omega)
  exact List.all_eq_true.2 fun c hc => by simpa using List.filter_eq_nil_iff.1 hcontent c hc

/-! ## The exact conditions -/

/-- The block of a structured comment is made of its text. The samples of the text are those of the block, each one once
and in order. What is written in them has no part in the remarks, and it has none in the summary exactly when no sample
is opened there. A summary with a sample in it is the same as without the tags of the sample, and so it is the same as
without the sample only if this one is blank. Tags of a section in a sample are tags like all others: a summary that is
written in a sample is the summary of the comment. -/
theorem samples_apart_iff (options : Options) :
    (∀ comments, HasStructured comments →
      ofComments? options comments = some (ofStructured options (structuredText comments))) ∧
    (∀ document, Document.IsWellClosed document →
      (ofStructured options document.write).codeSamples = document.samples.map fun sample =>
        { language := options.codeSampleLanguage, lines := (codeLines sample.content).map .ofList }) ∧
    (∀ document, Document.IsMarkedUp document →
      (∀ other, SameOutside document other → other.IsMarkedUp →
        (ofStructured options other.write).remarks = (ofStructured options document.write).remarks) ∧
      ((∀ other, SameOutside document other → other.IsMarkedUp →
          (ofStructured options other.write).summary = (ofStructured options document.write).summary) ↔
        ∀ content ∈ (elements "summary" document.write).head?, opens "code" content = false)) ∧
    (∀ before content after, '<' ∉ before ++ (content ++ after) →
      (ofStructured options (summaryDocument before content after).write).summary =
          (ofStructured options (writeSummary (before ++ (content ++ after)))).summary ∧
        ('&' ∉ before ++ (content ++ after) →
          (ofStructured options (summaryDocument before content after).write).summary =
            (ofStructured options (writeSummary (before ++ after))).summary → isBlankText content = true)) ∧
    ∀ content, '<' ∉ content →
      (ofStructured options (summarySample content).write).summary =
        (ofStructured options (writeSummary content)).summary := by
  refine ⟨fun comments => ofComments?_of_structured options, fun document h => ?_, fun document h => ⟨?_, ?_⟩, ?_, ?_⟩
  · rw [ofStructured, elements_write h, List.map_map]
    rfl
  · exact fun other hsame hother => hsame.remarks_eq h hother options
  · have hopens : (∀ content ∈ (elements "summary" document.write).head?, opens "code" content = false) ↔
        ∀ content ∈ document.section? "summary", content.samples = [] := by
      rw [head?_elements, element?_write h (by decide)]
      cases hcontent : document.section? "summary" with
      | none => simp
      | some content => simp [opens_write (h.section? (by decide) hcontent)]
    rw [hopens]
    exact ⟨samples_eq_nil_of_summary_eq h options, fun hempty other hsame hother =>
      hsame.summary_eq h hother hempty options⟩
  · intro before content after hmark
    rw [summary_summaryDocument options hmark, summary_writeSummary options hmark]
    exact ⟨rfl, isBlankText_of_summary_eq options hmark⟩
  · intro content hmark
    rw [summary_summarySample options hmark, summary_writeSummary options hmark]

/-- A comment with a sample in its summary. -/
def runsComment : String := "/// <summary>Runs <code>x();</code>now.</summary>"

/-- The text of `runsComment`. -/
def runsDocument : Document := summaryDocument "Runs ".toList "x();".toList "now.".toList

/-- The sample of `runsComment` is a sample of its block, and is in the summary as well. So is what is written in a
sample that has the form of a summary. -/
theorem not_apart_runsComment :
    ofComments? {} [runsComment] = some {
      summary := ["Runs x();now."], codeSamples := [{ language := "csharp", lines := ["x();"] }] } ∧
    (¬ ∀ other, SameOutside runsDocument other → other.IsMarkedUp →
      (ofStructured {} other.write).summary = (ofStructured {} runsDocument.write).summary) ∧
    (ofStructured {} (summarySample ['x']).write).summary = ["x"] := by
  obtain ⟨hblock, -, hapart, -, hsection⟩ := samples_apart_iff {}
  have hdocument : runsDocument.IsMarkedUp := isMarkedUp_summaryDocument (by decide)
  refine ⟨(hblock [runsComment] (by decide)).trans (by decide +kernel), fun hall => ?_, ?_⟩
  · have hopens := (hapart runsDocument hdocument).2.1 hall "Runs <code>x();</code>now.".toList (by decide +kernel)
    exact absurd hopens (by decide)
  · rw [hsection ['x'] (by decide)]
    decide +kernel

end TypeBridge.Documentation
