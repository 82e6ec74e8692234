import TypeBridge.Proofs.Documentation.Markup

/-!
# Texts with code samples

A documentation text with code samples is put together of texts and samples in turn. Each sample is found once and in
its place. The sections of the text, the summary and the remarks, begin and end outside of the samples, wherever
these stand.

Results:
* `elements_write`: the samples of a text.
* `element?_write`: a section of a text, with the samples that stand in it.
* `opens_write`: whether there are any.
* `SameOutside.section?`: the sections of two texts that differ in what is written in their samples.
-/
namespace TypeBridge.Documentation

open Text

/-! ## Texts with code samples -/

/-- A code sample as it is written: what stands behind the name in its opening tag, what is between the tags, and the
blanks behind the name in its closing tag. -/
structure Sample where
  attributes : List Char
  content : List Char
  blanks : List Char

/-- A text with code samples. -/
inductive Document
  | text (s : List Char)
  | code (before : List Char) (sample : Sample) (rest : Document)

/-- The text of a sample. -/
def Sample.write (sample : Sample) : List Char :=
  openingTag "code".toList sample.attributes ++ (sample.content ++ closingTag "code".toList sample.blanks)

/-- The text with its samples. -/
def Document.write : Document → List Char
  | .text s => s
  | .code before sample rest => before ++ (sample.write ++ rest.write)

/-- The samples of a text, in order. -/
def Document.samples : Document → List Sample
  | .text _ => []
  | .code _ sample rest => sample :: rest.samples

/-- What it means that the texts and the samples of a document have some properties. -/
def Document.Forall (P : List Char → Prop) (Q : Sample → Prop) : Document → Prop
  | .text s => P s
  | .code before sample rest => P before ∧ Q sample ∧ rest.Forall P Q

/-- What it means that a text has no tag of an element of a name. -/
structure IsSilent (name : String) (s : List Char) : Prop where
  opening : opens name s = false
  closing : untilClosing? name.toList s = none

theorem isSilent_of_not_mem (name : String) {s : List Char} (h : '<' ∉ s) : IsSilent name s :=
  ⟨opens_of_not_mem name h, untilClosing?_of_not_mem name.toList h⟩

/-- What it means that a sample is closed by its closing tag and that no other one is in it. -/
structure Sample.IsWellClosed (sample : Sample) : Prop where
  attributes : beginsWithWordChar sample.attributes = false ∧ '>' ∉ sample.attributes
  content : IsSilent "code" sample.content
  blanks : isBlankText sample.blanks = true

/-- What it means that code samples are well closed and not nested. -/
def Document.IsWellClosed (document : Document) : Prop :=
  document.Forall (opens "code" · = false) Sample.IsWellClosed

/-! ## The samples of a text -/

theorem isElementName_code : IsElementName "code".toList := ⟨by decide, by decide⟩

theorem head?_write (sample : Sample) (s : List Char) : ∀ c ∈ (sample.write ++ s).head?, c = '<' := by
  simp [Sample.write, openingTag]

theorem Sample.write_append (sample : Sample) (s : List Char) : sample.write ++ s =
    openingTag "code".toList sample.attributes ++
      (sample.content ++ (closingTag "code".toList sample.blanks ++ s)) := by
  rw [Sample.write, List.append_assoc, List.append_assoc]

theorem afterOpening?_write {sample : Sample} (h : sample.IsWellClosed) (s : List Char) :
    afterOpening? "code".toList (sample.write ++ s) =
      some (sample.content ++ (closingTag "code".toList sample.blanks ++ s)) := by
  rw [Sample.write_append, afterOpening?_openingTag h.attributes.1 h.attributes.2]

theorem findElement_write {sample : Sample} (h : sample.IsWellClosed) (s : List Char) :
    findElement "code".toList (sample.write ++ s) = some (sample.content, s) := by
  rw [findElement, afterOpening?_write h]
  exact untilClosing?_content isElementName_code h.content.closing h.blanks s

/-- Each sample is found once, in order, with what is written in it. -/
theorem elements_write {document : Document} (h : document.IsWellClosed) :
    elements "code" document.write = document.samples.map (·.content) := by
  induction document with
  | text s => exact elements_of_not_opens isElementName_code h
  | code before sample rest ih =>
    obtain ⟨hbefore, hsample, hrest⟩ := h
    rw [Document.write, elements, elementsFrom_append isElementName_code hbefore (head?_write sample rest.write),
      elementsFrom_of_find (by simp [Sample.write, openingTag]) (findElement_write hsample rest.write), ← elements,
      ih hrest]
    rfl

/-! ## Samples and sections -/

/-- The names of the elements whose text is written as it is. -/
def sectionNames : List String := ["summary", "remarks"]

/-- What it means that a sample has no tag of a section. -/
structure Sample.IsMarkedUp (sample : Sample) : Prop extends Sample.IsWellClosed sample where
  opening : '<' ∉ sample.attributes
  silent : ∀ name ∈ sectionNames, IsSilent name sample.content

/-- What it means that a text between samples has only complete tags, and none of a sample. -/
structure IsBetween (s : List Char) : Prop where
  opening : opens "code" s = false
  markup : IsMarkup s

/-- What it means that all tags of a document outside of its samples are complete, and that no sample has a tag of a
section. -/
def Document.IsMarkedUp (document : Document) : Prop := document.Forall IsBetween Sample.IsMarkedUp

theorem isElementName_of_mem {name : String} (h : name ∈ sectionNames) : IsElementName name.toList := by
  simp only [sectionNames, List.mem_cons, List.not_mem_nil, or_false] at h
  rcases h with rfl | rfl <;> exact ⟨by decide, by decide⟩

/-- The tags of a sample are no references, and they neither open nor close a section. -/
theorem dropStart?_code {name : String} (h : name ∈ sectionNames ++ referenceNames) (s : List Char) :
    dropStart? name.toList ("code".toList ++ s) = none ∧ dropStart? name.toList ('/' :: s) = none := by
  simp only [sectionNames, referenceNames, List.cons_append, List.nil_append, List.mem_cons, List.not_mem_nil,
    or_false] at h
  rcases h with rfl | rfl | rfl | rfl | rfl | rfl <;> exact ⟨rfl, rfl⟩

theorem getLast?_write (sample : Sample) : sample.write.getLast? = some '>' := by
  simp [Sample.write, List.getLast?_append, getLast?_closingTag]

/-- No section begins or ends in a sample. -/
theorem Sample.IsMarkedUp.outside {sample : Sample} (h : sample.IsMarkedUp) {name : String}
    (hname : name ∈ sectionNames) :
    opening? name.toList sample.write = none ∧ untilClosing? name.toList sample.write = none := by
  have helement := isElementName_of_mem hname
  have hopening : '<' ∉ "code".toList ++ sample.attributes ++ ['>'] := by simp [h.opening]
  have hclosing : '<' ∉ '/' :: "code".toList ++ sample.blanks ++ ['>'] := by
    have hblanks : '<' ∉ sample.blanks := not_mem_of_isBlankText h.blanks (by decide)
    simp [hblanks]
  have hcode (s : List Char) := dropStart?_code (List.mem_append_left referenceNames hname) s
  have hlast := getLast?_openingTag "code".toList sample.attributes
  obtain ⟨hstart, hstop⟩ := h.silent name hname
  constructor
  · rw [Sample.write, opening?_append helement (fun _ => .inr hlast) (isClosed_of_getLast? hlast),
      opening?_of_not_opens helement hstart (by simp [closingTag]), openingTag, closingTag, opening?_mark hopening,
      opening?_mark hclosing]
    · rfl
    · exact (hcode _).2
    · rw [List.append_assoc]
      exact (hcode _).1
  · rw [Sample.write, untilClosing?_append helement fun _ => .inr hlast,
      untilClosing?_append helement fun _ => .inl (by simp [closingTag]), hstop, openingTag, closingTag,
      untilClosing?_mark hopening, untilClosing?_mark hclosing]
    · rfl
    · rw [List.append_assoc]
      exact (hcode _).1
    · rfl

/-! ## Sections of a document -/

/-- The document after the first complete opening tag. -/
def Document.after? (name : List Char) : Document → Option Document
  | .text s => (opening? name s).map .text
  | .code before sample rest =>
    match opening? name before with
    | some s => some (.code s sample rest)
    | none => rest.after? name

/-- The document before the first closing tag. -/
def Document.until? (name : List Char) : Document → Option Document
  | .text s => (untilClosing? name s).map fun (content, _) => .text content
  | .code before sample rest =>
    match untilClosing? name before with
    | some (content, _) => some (.text content)
    | none => (rest.until? name).map (.code before sample)

/-- The first section with a name. -/
def Document.section? (name : String) (document : Document) : Option Document :=
  (document.after? name.toList).bind (·.until? name.toList)

theorem opening?_write {document : Document} (h : document.IsMarkedUp) {name : String} (hname : name ∈ sectionNames) :
    opening? name.toList document.write = (document.after? name.toList).map (·.write) := by
  have helement := isElementName_of_mem hname
  induction document with
  | text s =>
    rw [Document.after?, Option.map_map]
    exact Option.map_id'.symm
  | code before sample rest ih =>
    obtain ⟨hbefore, hsample, hrest⟩ := h
    have hwrite : opening? name.toList (sample.write ++ rest.write) = opening? name.toList rest.write := by
      have hlast := getLast?_write sample
      rw [opening?_append helement (fun _ => .inr hlast) (isClosed_of_getLast? hlast), (hsample.outside hname).1]
      rfl
    rw [Document.write,
      opening?_append helement (fun _ => .inl (head?_write sample rest.write)) hbefore.markup.isClosed, hwrite,
      ih hrest, Document.after?]
    cases opening? name.toList before <;> rfl

theorem untilClosing?_write {document : Document} (h : document.IsMarkedUp) {name : String}
    (hname : name ∈ sectionNames) :
    (untilClosing? name.toList document.write).map (·.1) = (document.until? name.toList).map (·.write) := by
  have helement := isElementName_of_mem hname
  induction document with
  | text s =>
    rw [Document.until?, Option.map_map]
    rfl
  | code before sample rest ih =>
    obtain ⟨hbefore, hsample, hrest⟩ := h
    have hwrite := untilClosing?_append helement (t := rest.write) fun _ => .inr (getLast?_write sample)
    rw [(hsample.outside hname).2, Option.map_none, Option.none_or] at hwrite
    rw [Document.write, untilClosing?_append helement fun _ => .inl (head?_write sample rest.write), hwrite,
      Document.until?]
    cases untilClosing? name.toList before with
    | some found => rfl
    | none =>
      calc
        _ = ((untilClosing? name.toList rest.write).map (·.1)).map
            fun content => before ++ (sample.write ++ content) := by
          cases untilClosing? name.toList rest.write <;> rfl
        _ = ((rest.until? name.toList).map (·.write)).map fun content => before ++ (sample.write ++ content) := by
          rw [ih hrest]
        _ = _ := by cases rest.until? name.toList <;> rfl

theorem IsBetween.of_opening? {s rest : List Char} (h : IsBetween s) {name : List Char} (hname : IsElementName name)
    (hfound : opening? name s = some rest) : IsBetween rest := by
  obtain ⟨t, ⟨first, rfl⟩, htag⟩ := exists_of_opening? hfound
  obtain ⟨before, rfl, -⟩ := splitFirst_of_afterOpening? hname htag
  have hparts : first ++ (before ++ '>' :: rest) = first ++ before ++ ['>'] ++ rest := by simp
  have hopens := h.opening
  rw [hparts, opens_append isElementName_code fun _ => .inr (by simp), Bool.or_eq_false_iff] at hopens
  refine ⟨hopens.2, IsMarkup.after_mark (s := first ++ before) ?_⟩
  rw [List.append_assoc]
  exact h.markup

theorem IsBetween.of_untilClosing? {s content rest : List Char} (h : IsBetween s) {name : List Char}
    (hfound : untilClosing? name s = some (content, rest)) : IsBetween content := by
  obtain ⟨t, rfl⟩ := exists_of_untilClosing? hfound
  have hopens := h.opening
  rw [opens_append isElementName_code fun _ => .inl (by simp), Bool.or_eq_false_iff] at hopens
  exact ⟨hopens.1, h.markup.before_mark⟩

theorem Document.IsMarkedUp.after? {document after : Document} (h : document.IsMarkedUp) {name : List Char}
    (hname : IsElementName name) (hafter : document.after? name = some after) : after.IsMarkedUp := by
  induction document with
  | text s =>
    obtain ⟨rest, hfound, rfl⟩ := Option.map_eq_some_iff.1 hafter
    exact IsBetween.of_opening? h hname hfound
  | code before sample rest ih =>
    rw [Document.after?] at hafter
    split at hafter
    · rename_i s hfound
      obtain rfl := Option.some.inj hafter
      exact ⟨h.1.of_opening? hname hfound, h.2⟩
    · exact ih h.2.2 hafter

theorem Document.IsMarkedUp.until? {document before : Document} (h : document.IsMarkedUp) {name : List Char}
    (hbefore : document.until? name = some before) : before.IsMarkedUp := by
  induction document generalizing before with
  | text s =>
    obtain ⟨⟨content, rest⟩, hfound, rfl⟩ := Option.map_eq_some_iff.1 hbefore
    exact IsBetween.of_untilClosing? h hfound
  | code first sample rest ih =>
    rw [Document.until?] at hbefore
    split at hbefore
    · rename_i content _ hfound
      obtain rfl := Option.some.inj hbefore
      exact h.1.of_untilClosing? hfound
    · obtain ⟨last, hlast, rfl⟩ := Option.map_eq_some_iff.1 hbefore
      exact ⟨h.1, h.2.1, ih h.2.2 hlast⟩

theorem Document.IsMarkedUp.section? {document content : Document} (h : document.IsMarkedUp) {name : String}
    (hname : name ∈ sectionNames) (hcontent : document.section? name = some content) : content.IsMarkedUp := by
  obtain ⟨after, hafter, hbefore⟩ := Option.bind_eq_some_iff.1 hcontent
  exact (h.after? (isElementName_of_mem hname) hafter).until? hbefore

/-- The first section of a document is found with the samples that stand in it. -/
theorem element?_write {document : Document} (h : document.IsMarkedUp) {name : String} (hname : name ∈ sectionNames) :
    element? name.toList document.write = (document.section? name).map (·.write) := by
  have helement := isElementName_of_mem hname
  rw [element?_eq helement, opening?_write h hname, Document.section?]
  cases hafter : document.after? name.toList with
  | none => rfl
  | some after => exact untilClosing?_write (h.after? helement hafter) hname

/-- A section opens a sample exactly when a sample stands in it. -/
theorem opens_write {document : Document} (h : document.IsMarkedUp) :
    opens "code" document.write = !document.samples.isEmpty := by
  cases document with
  | text s => exact IsBetween.opening h
  | code before sample rest =>
    obtain ⟨hbefore, hsample, -⟩ := h
    have hopen := opens_of_afterOpening? (afterOpening?_write hsample.toIsWellClosed rest.write)
    rw [Document.write, opens_append isElementName_code fun _ => .inl (head?_write sample rest.write), hopen,
      Bool.or_true]
    rfl

/-! ## Other samples in the same places -/

/-- What it means that two documents differ at most in what is written in their samples. -/
inductive SameOutside : Document → Document → Prop
  | text (s : List Char) : SameOutside (.text s) (.text s)
  | code (before : List Char) {sample sample' : Sample} {rest rest' : Document} :
    sample'.attributes = sample.attributes → sample'.blanks = sample.blanks → SameOutside rest rest' →
    SameOutside (.code before sample rest) (.code before sample' rest')

theorem SameOutside.after? {document document' : Document} (h : SameOutside document document') (name : List Char) :
    Option.Rel SameOutside (document.after? name) (document'.after? name) := by
  induction h with
  | text s =>
    rw [Document.after?]
    cases opening? name s with
    | none => exact .none
    | some rest => exact .some (.text rest)
  | code before hattributes hblanks hrest ih =>
    rw [Document.after?, Document.after?]
    cases opening? name before with
    | none => exact ih
    | some s => exact .some (.code s hattributes hblanks hrest)

theorem SameOutside.until? {document document' : Document} (h : SameOutside document document') (name : List Char) :
    Option.Rel SameOutside (document.until? name) (document'.until? name) := by
  induction h with
  | text s =>
    rw [Document.until?]
    cases untilClosing? name s with
    | none => exact .none
    | some found => exact .some (.text found.1)
  | @code before sample sample' rest rest' hattributes hblanks _ ih =>
    rw [Document.until?, Document.until?]
    cases untilClosing? name before with
    | some found => exact .some (.text found.1)
    | none =>
      simp only
      generalize rest.until? name = last at ih ⊢
      generalize rest'.until? name = last' at ih ⊢
      cases ih with
      | none => exact .none
      | some hrest => exact .some (.code before hattributes hblanks hrest)

/-- The sections of such documents differ at most in what is written in their samples. -/
theorem SameOutside.section? {document document' : Document} (h : SameOutside document document') (name : String) :
    Option.Rel SameOutside (document.section? name) (document'.section? name) := by
  have hafter := h.after? name.toList
  rw [Document.section?, Document.section?]
  generalize document.after? name.toList = after at hafter ⊢
  generalize document'.after? name.toList = after' at hafter ⊢
  cases hafter with
  | none => exact .none
  | some hafter => exact hafter.until? name.toList

theorem SameOutside.isEmpty_samples {document document' : Document} (h : SameOutside document document') :
    document'.samples.isEmpty = document.samples.isEmpty := by
  cases h <;> rfl

theorem SameOutside.eq_of_samples_eq_nil {document document' : Document} (h : SameOutside document document')
    (hempty : document.samples = []) : document' = document := by
  cases h with
  | text s => rfl
  | code => cases hempty

end TypeBridge.Documentation
