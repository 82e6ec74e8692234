import TypeBridge.Proofs.Documentation.Element
import TypeBridge.Proofs.Documentation.Flattening
import TypeBridge.Proofs.Text.CharacterReference
import Mathlib.Algebra.Group.Nat.Even

/-!
# Marked up text

In a text whose tags are all complete nothing that is looked for runs into the text after it. So the tags of such a
text are taken out piece by piece: what is before some place, and what is after it.

Results:
* `IsMarkup.before_mark`, `IsMarkup.after_mark`, `IsMarkup.isClosed`: parts of a marked up text.
* `TakesTags.substitute_append`: the text is searched piece by piece, and is still marked up.
* `withoutTags_append`, `withoutTags_tag`: so are its tags taken out.
-/
namespace TypeBridge.Documentation

open Text

/-- What it means that a text can be that of a tag: it holds no other tag, and its quotations are closed. -/
structure IsTagText (inner : List Char) : Prop where
  opening : '<' ∉ inner
  closing : '>' ∉ inner
  quotations : Even (inner.count '"')

instance (inner : List Char) : Decidable (IsTagText inner) :=
  decidable_of_iff ('<' ∉ inner ∧ '>' ∉ inner ∧ Even (inner.count '"'))
    ⟨fun ⟨ho, hc, hq⟩ => ⟨ho, hc, hq⟩, fun ⟨ho, hc, hq⟩ => ⟨ho, hc, hq⟩⟩

/-- What it means that all tags of a text are complete. -/
inductive IsMarkup : List Char → Prop
  | nil : IsMarkup []
  | char {c : Char} {s : List Char} : c ≠ '<' → IsMarkup s → IsMarkup (c :: s)
  | tag {inner s : List Char} : IsTagText inner → IsMarkup s → IsMarkup ('<' :: (inner ++ '>' :: s))

/-! ## Parts of a text -/

theorem isMarkup_of_not_mem {s : List Char} (h : '<' ∉ s) : IsMarkup s := by
  induction s with
  | nil => exact .nil
  | cons c s ih =>
    rw [List.mem_cons, not_or] at h
    exact .char (Ne.symm h.1) (ih h.2)

theorem IsMarkup.append {s t : List Char} (hs : IsMarkup s) (ht : IsMarkup t) : IsMarkup (s ++ t) := by
  induction hs with
  | nil => exact ht
  | char hc _ ih => exact .char hc ih
  | tag hinner _ ih =>
    rw [List.cons_append, List.append_assoc, List.cons_append]
    exact .tag hinner ih

/-- Of two marks in a text, one that does not stand before the other one stands after it. -/
theorem exists_between_marks {inner s t u : List Char} {c d : Char} (h : inner ++ d :: s = t ++ c :: u)
    (hc : c ∉ inner) (hne : c ≠ d) : ∃ t', t = inner ++ d :: t' ∧ s = t' ++ c :: u := by
  rcases List.append_eq_append_iff.1 h with ⟨t', rfl, hs⟩ | ⟨inner', rfl, hs⟩
  · cases t' with
    | nil => exact absurd (List.cons.inj hs).1.symm hne
    | cons d t' =>
      obtain ⟨rfl, rfl⟩ := List.cons.inj hs
      exact ⟨t', rfl, rfl⟩
  · cases inner' with
    | nil => exact absurd (List.cons.inj hs).1 hne
    | cons d inner' =>
      obtain ⟨rfl, -⟩ := List.cons.inj hs
      exact absurd (by simp) hc

theorem IsMarkup.before_mark {s t : List Char} (h : IsMarkup (s ++ '<' :: t)) : IsMarkup s := by
  generalize hw : s ++ '<' :: t = w at h
  induction h generalizing s with
  | nil => simp at hw
  | @char c w hc _ ih =>
    cases s with
    | nil => exact .nil
    | cons d s =>
      obtain ⟨rfl, rfl⟩ := List.cons.inj hw
      exact .char hc (ih rfl)
  | @tag inner w hinner _ ih =>
    cases s with
    | nil => exact .nil
    | cons d s =>
      obtain ⟨rfl, htail⟩ := List.cons.inj hw
      obtain ⟨s', rfl, hrest⟩ := exists_between_marks htail.symm hinner.opening (by decide)
      exact .tag hinner (ih hrest.symm)

theorem IsMarkup.after_mark {s t : List Char} (h : IsMarkup (s ++ '>' :: t)) : IsMarkup t := by
  generalize hw : s ++ '>' :: t = w at h
  induction h generalizing s with
  | nil => simp at hw
  | @char c w hc h ih =>
    cases s with
    | nil =>
      obtain ⟨-, rfl⟩ := List.cons.inj hw
      exact h
    | cons d s => exact ih (List.cons.inj hw).2
  | @tag inner w hinner h ih =>
    cases s with
    | nil => exact absurd (List.cons.inj hw).1 (by decide)
    | cons d s =>
      rcases List.append_eq_append_iff.1 (List.cons.inj hw).2 with ⟨s', hs, ht⟩ | ⟨s', -, ht⟩
      · cases s' with
        | nil =>
          obtain ⟨-, rfl⟩ := List.cons.inj ht
          exact h
        | cons e s' =>
          obtain ⟨rfl, -⟩ := List.cons.inj ht
          exact absurd (by simp [hs]) hinner.closing
      · cases s' with
        | nil =>
          obtain ⟨-, rfl⟩ := List.cons.inj ht
          exact h
        | cons e s' => exact ih (List.cons.inj ht).2.symm

theorem IsMarkup.isClosed {s : List Char} (h : IsMarkup s) : IsClosed s := by
  induction h with
  | nil =>
    intro r hr
    simp at hr
  | char hc _ ih =>
    intro r hr
    rcases List.suffix_cons_iff.1 hr with heq | hr
    · exact absurd (List.cons.inj heq).1.symm hc
    · exact ih r hr
  | tag hinner _ ih =>
    intro r hr
    rcases List.suffix_cons_iff.1 hr with heq | ⟨t, ht⟩
    · simp [(List.cons.inj heq).2]
    · obtain ⟨t', -, hs⟩ := exists_between_marks ht.symm hinner.opening (by decide)
      exact ih r ⟨t', hs.symm⟩

/-! ## Searching for tags -/

variable {find : Finder}

/-- What it means that only what begins with `<` is found. -/
def FindsMarks (find : Finder) : Prop := ∀ c r, c ≠ '<' → find (c :: r) = none

/-- What it means that of marked up text only complete tags are found, and what takes their place opens no tag. -/
structure TakesTags (find : Finder) : Prop where
  marks : FindsMarks find
  tag : ∀ inner, IsTagText inner → (∀ s, find ('<' :: (inner ++ '>' :: s)) = none) ∨
    ∃ text, '<' ∉ text ∧ ∀ s, find ('<' :: (inner ++ '>' :: s)) = some (text, s)

theorem FindsMarks.substitute_text (h : FindsMarks find) {s : List Char} (hs : '<' ∉ s) (u : List Char) :
    substitute find (s ++ u) = s ++ substitute find u := by
  refine Text.substitute_append fun t hne ht => ?_
  obtain ⟨c, t, rfl⟩ := List.exists_cons_of_ne_nil hne
  refine h c _ fun hc => hs (ht.subset ?_)
  rw [hc]
  exact List.mem_cons_self

theorem FindsMarks.substitute_tag (h : FindsMarks find) {inner s : List Char} (hinner : '<' ∉ inner)
    (hnone : find ('<' :: (inner ++ '>' :: s)) = none) :
    substitute find ('<' :: (inner ++ '>' :: s)) = '<' :: (inner ++ '>' :: substitute find s) := by
  rw [substitute_cons hnone, h.substitute_text hinner, substitute_cons (h '>' s (by decide))]

theorem substitute_tag {inner text s : List Char} (hfound : find ('<' :: (inner ++ '>' :: s)) = some (text, s)) :
    substitute find ('<' :: (inner ++ '>' :: s)) = text ++ substitute find s := by
  have hparts : '<' :: (inner ++ '>' :: s) = '<' :: (inner ++ ['>']) ++ s := by simp
  rw [hparts] at hfound ⊢
  exact substitute_of_find (List.cons_ne_nil _ _) hfound

/-- A text whose tags are complete is searched without what is after it, and its tags stay complete. -/
theorem TakesTags.substitute_append (h : TakesTags find) {s : List Char} (hs : IsMarkup s) :
    IsMarkup (substitute find s) ∧ ∀ u, substitute find (s ++ u) = substitute find s ++ substitute find u := by
  induction hs with
  | nil => exact ⟨.nil, fun _ => rfl⟩
  | @char c s hc _ ih =>
    have hcons (r : List Char) : substitute find (c :: r) = c :: substitute find r := substitute_cons (h.marks c r hc)
    refine ⟨?_, fun u => ?_⟩
    · rw [hcons]
      exact .char hc ih.1
    · rw [List.cons_append, hcons, hcons, ih.2, List.cons_append]
  | @tag inner s hinner _ ih =>
    rcases h.tag inner hinner with hnone | ⟨text, htext, hfound⟩
    · have htag (r : List Char) := h.marks.substitute_tag hinner.opening (hnone r)
      refine ⟨?_, fun u => ?_⟩
      · rw [htag]
        exact .tag hinner ih.1
      · rw [htag, List.cons_append, List.append_assoc, List.cons_append, htag, ih.2]
        simp
    · have htag (r : List Char) := substitute_tag (hfound r)
      refine ⟨?_, fun u => ?_⟩
      · rw [htag]
        exact (isMarkup_of_not_mem htext).append ih.1
      · rw [htag, List.cons_append, List.append_assoc, List.cons_append, htag, ih.2, List.append_assoc]

theorem takesTags_findTag : TakesTags findTag := by
  refine ⟨fun _ r hc => findTag_of_ne hc r, fun inner hinner => ?_⟩
  by_cases hne : inner = []
  · exact .inl fun s => by rw [hne]; rfl
  · exact .inr ⟨[], by simp, fun s => findTag_eq_some_iff.2 ⟨rfl, inner, hne, hinner.closing, rfl⟩⟩

/-- In a reference the value is the only quotation, and only the value can hold another mark before the end. -/
theorem IsReference.exists_parts {names keys : List String} (hnames : AreWords names) (hkeys : AreWords keys)
    {part value : List Char} (h : IsReference names keys part value) : ∃ start last,
      part = '<' :: (start ++ '"' :: (value ++ '"' :: (last ++ ['/', '>']))) ∧ '"' ∉ value ∧
        (∀ c ∈ start, c ≠ '<' ∧ c ≠ '>' ∧ c ≠ '"') ∧ isBlankText last = true := by
  cases h with
  | @tag name key first before after last _ hname hkey hne hfirst hbefore hafter hlast hvalue =>
    have hword {words : List String} (hwords : AreWords words) {word : String} (hword : word ∈ words) :
        ∀ c ∈ word.toList, c ≠ '<' ∧ c ≠ '>' ∧ c ≠ '"' := by
      refine fun c hc => ⟨?_, ?_, ?_⟩ <;>
        exact fun heq => hwords.not_mem hword (by decide) (heq ▸ hc)
    have hblank {blanks : List Char} (h : isBlankText blanks = true) :
        ∀ c ∈ blanks, c ≠ '<' ∧ c ≠ '>' ∧ c ≠ '"' := by
      refine fun c hc => ⟨?_, ?_, ?_⟩ <;>
        exact fun heq => not_mem_of_isBlankText h (by decide) (heq ▸ hc)
    refine ⟨name.toList ++ (first ++ (key.toList ++ (before ++ '=' :: after))), last, by simp, hvalue, ?_, hlast⟩
    simp only [List.forall_mem_append, List.forall_mem_cons]
    exact ⟨hword hnames hname, hblank hfirst, hword hkeys hkey, hblank hbefore, by decide, hblank hafter⟩

/-- What stands before the first of some mark is determined, and what stands after it. -/
theorem eq_of_append_mark {c : Char} {s t u v : List Char} (hs : c ∉ s) (ht : c ∉ t) (h : s ++ c :: u = t ++ c :: v) :
    s = t ∧ u = v := by
  have hsplit := congrArg (splitFirst c) h
  rw [splitFirst_eq s u hs, splitFirst_eq t v ht] at hsplit
  exact ⟨(Prod.mk.inj hsplit).1, Option.some.inj (Prod.mk.inj hsplit).2⟩

/-- A reference is one whole tag when the text of the tag has closed quotations. -/
theorem IsReference.eq_tag {names keys : List String} (hnames : AreWords names) (hkeys : AreWords keys)
    {part value inner s rest : List Char} (h : IsReference names keys part value) (hinner : IsTagText inner)
    (heq : '<' :: (inner ++ '>' :: s) = part ++ rest) : part = '<' :: (inner ++ ['>']) ∧ '<' ∉ value := by
  obtain ⟨start, last, rfl, hvalue, hstart, hlast⟩ := h.exists_parts hnames hkeys
  have hstart' : '>' ∉ start := fun hmem => (hstart _ hmem).2.1 rfl
  by_cases hmem : '>' ∈ value
  · -- Then the tag ends inside of the quotation.
    obtain ⟨before, after, rfl, hbefore⟩ := List.eq_append_cons_of_mem hmem
    have hparts : inner ++ '>' :: s =
        start ++ '"' :: before ++ '>' :: (after ++ '"' :: (last ++ '/' :: '>' :: rest)) := by
      simpa using heq
    have ⟨hquotation, _⟩ := eq_of_append_mark hinner.closing (by simp [hstart', hbefore]) hparts
    have hcount : inner.count '"' = 1 := by
      have hzero : start.count '"' = 0 := List.count_eq_zero.2 fun hmem => (hstart _ hmem).2.2 rfl
      have hzero' : before.count '"' = 0 := List.count_eq_zero.2 fun hmem => hvalue (List.mem_append_left _ hmem)
      rw [hquotation, List.count_append, List.count_cons_self, hzero, hzero']
    exact absurd (hcount ▸ hinner.quotations) (by decide)
  · have hparts : inner ++ '>' :: s = start ++ '"' :: (value ++ '"' :: (last ++ ['/'])) ++ '>' :: rest := by
      simpa using heq
    have hlast' : '>' ∉ last := not_mem_of_isBlankText hlast (by decide)
    have ⟨htag, _⟩ := eq_of_append_mark hinner.closing (by simp [hstart', hmem, hlast']) hparts
    exact ⟨by simp [htag], fun hopen => hinner.opening (by simp [htag, hopen])⟩

theorem findsMarks_findReference (names keys : List String) (render : List Char → List Char) :
    FindsMarks (findReference names keys render) := by
  intro c r hc
  cases hfind : findReference names keys render (c :: r) with
  | none => rfl
  | some result =>
    obtain ⟨part, value, href, heq, -⟩ := findReference_eq_some hfind
    cases href
    exact absurd (List.cons.inj heq).1 hc

theorem takesTags_findReference {names keys : List String} (hnames : AreWords names) (hkeys : AreWords keys)
    (hfree : IsPrefixFree keys) {render : List Char → List Char} (hrender : ∀ value, render value ⊆ value) :
    TakesTags (findReference names keys render) := by
  refine ⟨findsMarks_findReference names keys render, fun inner hinner => ?_⟩
  by_cases hfound : ∃ s, findReference names keys render ('<' :: (inner ++ '>' :: s)) ≠ none
  · obtain ⟨s, hs⟩ := hfound
    obtain ⟨⟨text, rest⟩, hfind⟩ := Option.ne_none_iff_exists'.1 hs
    obtain ⟨part, value, href, heq, -⟩ := findReference_eq_some hfind
    obtain ⟨rfl, hvalue⟩ := href.eq_tag hnames hkeys hinner heq
    refine .inr ⟨render value, fun hmem => hvalue (hrender value hmem), fun t => ?_⟩
    simpa using findReference_append hnames hkeys hfree render href t
  · exact .inl fun s => not_not.1 fun hs => hfound ⟨s, hs⟩

/-! ## Taking the tags out -/

/-- The tags of a marked up text are taken out without what is after it. -/
theorem withoutTags_append {s : List Char} (h : IsMarkup s) (u : List Char) :
    withoutTags (s ++ u) = withoutTags s ++ withoutTags u := by
  have hfirst : TakesTags (findReference ["see", "seealso"] ["cref", "href", "langword"] displayName) :=
    takesTags_findReference ⟨by decide, by decide⟩ ⟨by decide, by decide⟩ (by unfold IsPrefixFree; decide)
      displayName_subset
  have hsecond : TakesTags (findReference ["paramref", "typeparamref"] ["name"] id) :=
    takesTags_findReference ⟨by decide, by decide⟩ ⟨by decide, by decide⟩ (by unfold IsPrefixFree; decide)
      fun value => List.Subset.refl value
  obtain ⟨hs, happend⟩ := hfirst.substitute_append h
  obtain ⟨hs', happend'⟩ := hsecond.substitute_append hs
  rw [withoutTags, happend, happend', (takesTags_findTag.substitute_append hs').2]
  rfl

theorem tagFree_of_not_mem {s : List Char} (h : '<' ∉ s) : TagFree s :=
  fun _ _ _ hwithin => h (hwithin.subset List.mem_cons_self)

theorem findReference_tag {names : List String} (keys : List String) (render : List Char → List Char)
    {inner : List Char} (hname : ∀ name ∈ names, ∀ r, dropStart? name.toList (inner ++ r) = none) (s : List Char) :
    findReference names keys render ('<' :: (inner ++ '>' :: s)) = none := by
  have htag : afterTagName? names ('<' :: (inner ++ '>' :: s)) = none := by
    refine List.findSome?_eq_none_iff.2 fun name hmem => ?_
    rw [dropStart?, if_pos rfl, hname name hmem]
  rw [findReference, htag]
  rfl

/-- The names of the tags that are references. -/
def referenceNames : List String := ["see", "seealso", "paramref", "typeparamref"]

/-- A tag that is no reference is taken out. -/
theorem withoutTags_tag {inner : List Char} (hne : inner ≠ []) (hopening : '<' ∉ inner) (hclosing : '>' ∉ inner)
    (hname : ∀ name ∈ referenceNames, ∀ r, dropStart? name.toList (inner ++ r) = none) (s : List Char) :
    withoutTags ('<' :: (inner ++ '>' :: s)) = withoutTags s := by
  have hkeep {names keys : List String} {render : List Char → List Char} (hnames : names ⊆ referenceNames)
      (s : List Char) : substitute (findReference names keys render) ('<' :: (inner ++ '>' :: s)) =
        '<' :: (inner ++ '>' :: substitute (findReference names keys render) s) := by
    have hnone := findReference_tag keys render (fun name hmem => hname name (hnames hmem)) s
    exact (findsMarks_findReference names keys render).substitute_tag hopening hnone
  rw [withoutTags, hkeep (by decide), hkeep (by decide), withoutTags]
  exact substitute_tag (findTag_eq_some_iff.2 ⟨rfl, inner, hne, hclosing, rfl⟩)

end TypeBridge.Documentation
