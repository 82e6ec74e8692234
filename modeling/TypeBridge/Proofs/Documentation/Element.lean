import TypeBridge.Documentation.Tag
import TypeBridge.Proofs.Text.Trim
import Mathlib.Data.List.Infix

/-!
# Elements in a text

The first element of a name begins at the first complete opening tag of this name and ends at the first closing tag
after it. So it can be found piece by piece in a text that is put together of pieces, as long as no mark runs from one
piece into the next: when the next piece begins with a mark, or the piece ends with one.

Results:
* `element?_eq`: the first opening tag decides.
* `untilClosing?_append`, `opening?_append`: looking for tags piece by piece.
* `opening?_openingTag`, `untilClosing?_content`: one element.
* `elements_of_not_opens`: texts without elements.
-/
namespace TypeBridge.Documentation

open Text

/-! ## Pieces -/

/-- What it means that no mark runs from a text into the next one. -/
def Joint (s t : List Char) : Prop := (∀ c ∈ t.head?, c = '<') ∨ s.getLast? = some '>'

/-- What it means that every `<` of a text has a `>` after it. -/
def IsClosed (s : List Char) : Prop := ∀ r, '<' :: r <:+ s → '>' ∈ r

/-- What it means that a name can be that of an element. -/
structure IsElementName (name : List Char) : Prop where
  opening : '<' ∉ name
  closing : '>' ∉ name

theorem Joint.of_append {s before rest t : List Char} (h : Joint s t) (hs : s = before ++ rest)
    (hbefore : '>' ∉ before) : Joint rest t := by
  refine h.imp_right fun hlast => ?_
  rw [hs] at hlast
  cases rest with
  | nil =>
    rw [List.append_nil] at hlast
    exact absurd (List.mem_of_getLast? hlast) hbefore
  | cons c rest => rwa [List.getLast?_append_of_ne_nil _ (List.cons_ne_nil c rest)] at hlast

theorem Joint.tail {c : Char} {s t : List Char} (h : Joint (c :: s) t) (hne : s ≠ []) : Joint s t := by
  refine h.imp_right fun hlast => ?_
  rwa [← List.singleton_append, List.getLast?_append_of_ne_nil _ hne] at hlast

theorem IsClosed.suffix {s t : List Char} (h : IsClosed s) (ht : t <:+ s) : IsClosed t :=
  fun r hr => h r (hr.trans ht)

theorem isClosed_of_getLast? {s : List Char} (h : s.getLast? = some '>') : IsClosed s := by
  rintro r ⟨before, rfl⟩
  rw [List.getLast?_append_of_ne_nil _ (List.cons_ne_nil '<' r)] at h
  cases r with
  | nil => cases h
  | cons c r =>
    rw [← List.singleton_append, List.getLast?_append_of_ne_nil _ (List.cons_ne_nil c r)] at h
    exact List.mem_of_getLast? h

/-- What stands at the beginning of a piece does so when the next piece is added, and the other way round. -/
theorem dropStart?_append_of_joint {start s t : List Char} (hname : IsElementName start) (h : Joint s t) :
    dropStart? start (s ++ t) = (dropStart? start s).map (· ++ t) := by
  obtain ⟨hopening, hclosing⟩ := hname
  induction start generalizing s with
  | nil => simp [dropStart?]
  | cons c start ih =>
    rw [List.mem_cons, not_or] at hopening hclosing
    cases s with
    | nil =>
      rcases h with h | h
      · cases t with
        | nil => rfl
        | cons d t =>
          obtain rfl : d = '<' := h d rfl
          simp [dropStart?, Ne.symm hopening.1]
      · cases h
    | cons d s =>
      rw [List.cons_append, dropStart?, dropStart?]
      split
      · rename_i heq
        exact ih (h.of_append List.singleton_append.symm (by simpa [← heq] using hclosing.1)) hopening.2 hclosing.2
      · rfl

/-- The same for a tag, which begins with `<`. -/
theorem dropStart?_mark_append {mark s t : List Char} (hmark : IsElementName mark) (hne : s ≠ []) (h : Joint s t) :
    dropStart? ('<' :: mark) (s ++ t) = (dropStart? ('<' :: mark) s).map (· ++ t) := by
  obtain ⟨c, s, rfl⟩ := List.exists_cons_of_ne_nil hne
  rw [List.cons_append, dropStart?, dropStart?]
  split
  · rename_i heq
    exact dropStart?_append_of_joint hmark (h.of_append List.singleton_append.symm (by simp [← heq]))
  · rfl

/-- When only blanks are left of a piece, the next one begins with a mark. -/
theorem trimStart_append_of_joint {s t : List Char} (h : Joint s t) :
    (trimStart s = [] ∧ ∀ c ∈ (trimStart (s ++ t)).head?, c = '<') ∨
      (trimStart s ≠ [] ∧ trimStart (s ++ t) = trimStart s ++ t) := by
  rw [trimStart, trimStart, List.dropWhile_append]
  split
  · rename_i hempty
    rw [List.isEmpty_iff] at hempty
    refine .inl ⟨hempty, ?_⟩
    rcases h with h | h
    · cases t with
      | nil => simp
      | cons d t =>
        obtain rfl : d = '<' := h d rfl
        simp [isBlank]
    · exact absurd (List.dropWhile_eq_nil_iff.1 hempty '>' (List.mem_of_getLast? h)) (by decide)
  · rename_i hempty
    exact .inr ⟨fun hnil => hempty (List.isEmpty_iff.2 hnil), rfl⟩

/-! ## Closing tags -/

section Name

variable {name : List Char} (hname : IsElementName name)
include hname

theorem isElementName_slash : IsElementName ('/' :: name) :=
  ⟨by simp [hname.opening], by simp [hname.closing]⟩

theorem afterClosing?_append {s t : List Char} (hne : s ≠ []) (h : Joint s t) :
    afterClosing? name (s ++ t) = (afterClosing? name s).map (· ++ t) := by
  rw [afterClosing?, afterClosing?, dropStart?_mark_append (isElementName_slash hname) hne h]
  cases hdrop : dropStart? ('<' :: '/' :: name) s with
  | none => rfl
  | some r =>
    have hr : Joint r t := h.of_append (eq_append_of_dropStart? hdrop) (by simp [hname.closing])
    simp only [Option.map_some, Option.bind_eq_bind, Option.bind_some]
    rcases trimStart_append_of_joint hr with ⟨hnil, hstart⟩ | ⟨hne, heq⟩
    · rw [hnil]
      cases htrim : trimStart (r ++ t) with
      | nil => rfl
      | cons d u =>
        obtain rfl : d = '<' := hstart d (by simp [htrim])
        rfl
    · rw [heq]
      cases htrim : trimStart r with
      | nil => exact absurd htrim hne
      | cons c u =>
        rw [List.cons_append]
        by_cases hc : c = '>'
        · subst hc
          rfl
        · simp [hc]

theorem untilClosing?_append {s t : List Char} (h : s ≠ [] → Joint s t) :
    untilClosing? name (s ++ t) = ((untilClosing? name s).map fun (content, rest) => (content, rest ++ t)).or
      ((untilClosing? name t).map fun (content, rest) => (s ++ content, rest)) := by
  induction s with
  | nil =>
    simp [untilClosing?]
  | cons c s ih =>
    have hjoint := h (List.cons_ne_nil c s)
    have hclosing := afterClosing?_append hname (List.cons_ne_nil c s) hjoint
    rw [List.cons_append] at hclosing ⊢
    rw [untilClosing?, hclosing, untilClosing?]
    cases afterClosing? name (c :: s) with
    | some rest => rfl
    | none =>
      simp only [Option.map_none, ih fun hne => hjoint.tail hne]
      cases untilClosing? name s with
      | some found => rfl
      | none => cases untilClosing? name t <;> rfl

/-! ## Opening tags -/

theorem afterOpening?_append {s t : List Char} (hne : s ≠ []) (h : Joint s t) (hs : IsClosed s) :
    afterOpening? name (s ++ t) = (afterOpening? name s).map (· ++ t) := by
  rw [afterOpening?, afterOpening?, dropStart?_mark_append hname hne h]
  cases hdrop : dropStart? ('<' :: name) s with
  | none => rfl
  | some r =>
    have heq := eq_append_of_dropStart? hdrop
    have hmem : '>' ∈ r := by
      have hin := hs (name ++ r) (heq ▸ List.suffix_rfl)
      exact (List.mem_append.1 hin).resolve_left hname.closing
    obtain ⟨before, after, rfl, hbefore⟩ := List.eq_append_cons_of_mem hmem
    have hword : beginsWithWordChar (before ++ '>' :: after ++ t) = beginsWithWordChar (before ++ '>' :: after) := by
      cases before <;> rfl
    simp only [Option.map_some, Option.bind_eq_bind, Option.bind_some, hword]
    split
    · rfl
    · rw [List.append_assoc, List.cons_append, splitFirst_eq before _ hbefore, splitFirst_eq before _ hbefore]
      rfl

end Name

/-- The text after the first complete opening tag. -/
def opening? (name : List Char) : List Char → Option (List Char)
  | [] => none
  | c :: r => (afterOpening? name (c :: r)).or (opening? name r)

theorem opening?_append {name : List Char} (hname : IsElementName name) {s t : List Char} (h : s ≠ [] → Joint s t)
    (hs : IsClosed s) : opening? name (s ++ t) = ((opening? name s).map (· ++ t)).or (opening? name t) := by
  induction s with
  | nil => rfl
  | cons c s ih =>
    have hjoint := h (List.cons_ne_nil c s)
    have hopening := afterOpening?_append hname (List.cons_ne_nil c s) hjoint hs
    rw [List.cons_append] at hopening ⊢
    rw [opening?, hopening, ih (fun hne => hjoint.tail hne) (hs.suffix (List.suffix_cons c s)), opening?]
    cases afterOpening? name (c :: s) <;> rfl

/-! ## The first element -/

/-- The content of the first element of a name. -/
def element? (name s : List Char) : Option (List Char) := (elementsFrom name 0 s).head?

theorem head?_elements (name : String) (s : List Char) : (elements name s).head? = element? name.toList s := rfl

theorem exists_of_untilClosing? {name s content rest : List Char} (h : untilClosing? name s = some (content, rest)) :
    ∃ t, s = content ++ '<' :: t := by
  induction s generalizing content with
  | nil => cases h
  | cons c s ih =>
    rw [untilClosing?] at h
    split at h
    · rename_i hclosing
      obtain ⟨rfl, -⟩ := Prod.mk.inj (Option.some.inj h)
      rw [afterClosing?, Option.bind_eq_bind, Option.bind_eq_some_iff] at hclosing
      obtain ⟨r, hdrop, -⟩ := hclosing
      exact ⟨'/' :: name ++ r, (eq_append_of_dropStart? hdrop).trans (List.nil_append _).symm⟩
    · obtain ⟨⟨content, rest⟩, hfound, heq⟩ := Option.map_eq_some_iff.1 h
      obtain ⟨rfl, rfl⟩ := Prod.mk.inj heq
      obtain ⟨t, rfl⟩ := ih hfound
      exact ⟨t, rfl⟩

theorem untilClosing?_suffix {name s t : List Char} (h : untilClosing? name s = none) (ht : t <:+ s) :
    untilClosing? name t = none := by
  induction s with
  | nil =>
    rw [List.suffix_nil.1 ht]
    rfl
  | cons c s ih =>
    rcases List.suffix_cons_iff.1 ht with rfl | ht
    · exact h
    · rw [untilClosing?] at h
      split at h
      · cases h
      · exact ih (Option.map_eq_none_iff.1 h) ht

theorem exists_of_opening? {name s rest : List Char} (h : opening? name s = some rest) :
    ∃ t, t <:+ s ∧ afterOpening? name t = some rest := by
  induction s with
  | nil => cases h
  | cons c s ih =>
    rw [opening?] at h
    cases hopening : afterOpening? name (c :: s) with
    | some found =>
      rw [hopening, Option.some_or] at h
      exact ⟨c :: s, List.suffix_rfl, hopening.trans h⟩
    | none =>
      rw [hopening, Option.none_or] at h
      obtain ⟨t, ht, htag⟩ := ih h
      exact ⟨t, ht.trans (List.suffix_cons c s), htag⟩

/-- The text after an opening tag is the one after the first `>`. -/
theorem splitFirst_of_afterOpening? {name s rest : List Char} (hname : IsElementName name)
    (h : afterOpening? name s = some rest) : ∃ before, s = before ++ '>' :: rest ∧ '>' ∉ before := by
  simp only [afterOpening?, Option.bind_eq_bind, Option.bind_eq_some_iff] at h
  obtain ⟨r, hdrop, h⟩ := h
  split at h
  · cases h
  · obtain ⟨hr, hmem⟩ := splitFirst_eq_some (Prod.ext rfl h : splitFirst '>' r = (_, some rest))
    refine ⟨'<' :: (name ++ (splitFirst '>' r).1), ?_, by simp [hname.closing, hmem]⟩
    rw [eq_append_of_dropStart? hdrop]
    conv_lhs => rw [hr]
    simp

/-- A later opening tag does not end before an earlier one. -/
theorem suffix_of_afterOpening? {name s t rest later : List Char} (hname : IsElementName name) (ht : t <:+ s)
    (h : afterOpening? name s = some rest) (hlater : afterOpening? name t = some later) : later <:+ rest := by
  obtain ⟨before, hs, hbefore⟩ := splitFirst_of_afterOpening? hname h
  obtain ⟨before', rfl, -⟩ := splitFirst_of_afterOpening? hname hlater
  have hrest : '>' :: rest <:+ s := ⟨before, hs.symm⟩
  have hlater : '>' :: later <:+ s := (List.suffix_append before' _).trans ht
  rcases List.suffix_or_suffix_of_suffix hlater hrest with hsuffix | ⟨more, hmore⟩
  · rcases List.suffix_cons_iff.1 hsuffix with heq | hsuffix
    · exact (List.cons.inj heq).2 ▸ List.suffix_rfl
    · exact (List.suffix_cons '>' later).trans hsuffix
  · cases more with
    | nil => exact (List.cons.inj hmore).2 ▸ List.suffix_rfl
    | cons c more =>
      -- Then the first `>` would be that of the later tag.
      obtain ⟨first, hfirst⟩ := hlater
      obtain ⟨rfl, -⟩ := List.cons.inj hmore
      have hbefore' : before = first ++ '>' :: more := by
        refine (List.append_left_inj ('>' :: rest)).1 ?_
        rw [← hs, ← hfirst, ← hmore, List.append_assoc]
      exact absurd (by simp [hbefore']) hbefore

/-- The first complete opening tag decides: when nothing closes after it, nothing closes after a later one either. -/
theorem element?_eq {name : List Char} (hname : IsElementName name) (s : List Char) :
    element? name s = (opening? name s).bind fun rest => (untilClosing? name rest).map (·.1) := by
  induction s with
  | nil => rfl
  | cons c s ih =>
    rw [element?, elementsFrom, opening?, findElement]
    cases hopening : afterOpening? name (c :: s) with
    | none =>
      simp only [Option.bind_eq_bind, Option.bind_none, Option.none_or]
      exact ih
    | some rest =>
      simp only [Option.bind_eq_bind, Option.bind_some, Option.some_or]
      cases hclosing : untilClosing? name rest with
      | some found => rfl
      | none =>
        simp only [Option.map_none]
        rw [← element?, ih, Option.bind_eq_none_iff]
        intro later hlater
        obtain ⟨t, ht, htag⟩ := exists_of_opening? hlater
        have hsuffix := suffix_of_afterOpening? hname (ht.trans (List.suffix_cons c s)) hopening htag
        rw [untilClosing?_suffix hclosing hsuffix, Option.map_none]

/-! ## Tags of an element -/

/-- The opening tag of an element: its name and what stands behind it. -/
def openingTag (name attributes : List Char) : List Char := '<' :: (name ++ attributes ++ ['>'])

/-- The closing tag of an element: its name and blanks behind it. -/
def closingTag (name blanks : List Char) : List Char := '<' :: ('/' :: name ++ blanks ++ ['>'])

theorem getLast?_openingTag (name attributes : List Char) : (openingTag name attributes).getLast? = some '>' := by
  simp [openingTag, List.getLast?_append, List.getLast?_cons]

theorem getLast?_closingTag (name blanks : List Char) : (closingTag name blanks).getLast? = some '>' := by
  simp [closingTag, List.getLast?_append, List.getLast?_cons]

theorem afterOpening?_openingTag {attributes : List Char} (hword : beginsWithWordChar attributes = false)
    (hclosing : '>' ∉ attributes) (name s : List Char) :
    afterOpening? name (openingTag name attributes ++ s) = some s := by
  have hparts : openingTag name attributes ++ s = '<' :: name ++ (attributes ++ '>' :: s) := by simp [openingTag]
  have hword' : beginsWithWordChar (attributes ++ '>' :: s) = false := by
    cases attributes with
    | nil => rfl
    | cons c r => exact hword
  rw [hparts, afterOpening?, dropStart?_append]
  simp only [Option.bind_eq_bind, Option.bind_some, hword', Bool.false_eq_true, if_false]
  rw [splitFirst_eq _ _ hclosing]

theorem opening?_openingTag {attributes : List Char} (hword : beginsWithWordChar attributes = false)
    (hclosing : '>' ∉ attributes) (name s : List Char) :
    opening? name (openingTag name attributes ++ s) = some s := by
  have htag := afterOpening?_openingTag hword hclosing name s
  rw [openingTag, List.cons_append] at htag ⊢
  rw [opening?, htag, Option.some_or]

theorem untilClosing?_closingTag {blanks : List Char} (h : isBlankText blanks = true) (name s : List Char) :
    untilClosing? name (closingTag name blanks ++ s) = some ([], s) := by
  have hparts : closingTag name blanks ++ s = '<' :: '/' :: name ++ (blanks ++ '>' :: s) := by simp [closingTag]
  have hclosing : afterClosing? name ('<' :: '/' :: name ++ (blanks ++ '>' :: s)) = some s := by
    rw [afterClosing?, dropStart?_append]
    simp only [Option.bind_eq_bind, Option.bind_some]
    rw [trimStart_append_of_isBlankText h]
    rfl
  rw [hparts]
  rw [List.cons_append] at hclosing ⊢
  rw [untilClosing?, hclosing]

/-- The content of an element ends at its closing tag when nothing closes it before. -/
theorem untilClosing?_content {name : List Char} (hname : IsElementName name) {content : List Char}
    (hcontent : untilClosing? name content = none) {blanks : List Char} (hblanks : isBlankText blanks = true)
    (s : List Char) : untilClosing? name (content ++ (closingTag name blanks ++ s)) = some (content, s) := by
  have hmark : ∀ c ∈ (closingTag name blanks ++ s).head?, c = '<' := by simp [closingTag]
  rw [untilClosing?_append hname fun _ => .inl hmark, hcontent, untilClosing?_closingTag hblanks]
  simp

/-! ## All elements -/

theorem elementsFrom_length_append (name taken r : List Char) :
    elementsFrom name taken.length (taken ++ r) = elementsFrom name 0 r := by
  induction taken with
  | nil => rfl
  | cons c taken ih => exact ih

theorem elementsFrom_cons {name : List Char} {c : Char} {r : List Char} (h : afterOpening? name (c :: r) = none) :
    elementsFrom name 0 (c :: r) = elementsFrom name 0 r := by
  rw [elementsFrom, findElement, h]
  rfl

theorem elementsFrom_of_find {name part content rest : List Char} (hne : part ≠ [])
    (h : findElement name (part ++ rest) = some (content, rest)) :
    elementsFrom name 0 (part ++ rest) = content :: elementsFrom name 0 rest := by
  obtain ⟨c, part, rfl⟩ := List.exists_cons_of_ne_nil hne
  rw [List.cons_append] at h ⊢
  have hlength : (part ++ rest).length - rest.length = part.length := by
    rw [List.length_append]
    omega
  rw [elementsFrom, h]
  simp only
  rw [hlength, elementsFrom_length_append]

/-- Where no tag of a name is opened, none is opened when more text follows that begins with a mark. -/
theorem afterOpening?_of_not_opens {name : String} (hname : IsElementName name.toList) {c : Char} {s t : List Char}
    (h : opens name (c :: s) = false) (ht : ∀ d ∈ t.head?, d = '<') :
    afterOpening? name.toList (c :: s ++ t) = none := by
  rw [afterOpening?, dropStart?_mark_append hname (List.cons_ne_nil c s) (.inl ht)]
  rw [opens] at h
  cases hdrop : dropStart? ('<' :: name.toList) (c :: s) with
  | none => rfl
  | some r =>
    rw [hdrop] at h
    simp only [Bool.or_eq_false_iff, Bool.not_eq_false'] at h
    have hword : beginsWithWordChar (r ++ t) = true := by
      cases r with
      | nil => cases h.1
      | cons d r => exact h.1
    simp [hword]

theorem opens_of_afterOpening? {name : String} {s rest : List Char} (h : afterOpening? name.toList s = some rest) :
    opens name s = true := by
  simp only [afterOpening?, Option.bind_eq_bind, Option.bind_eq_some_iff] at h
  obtain ⟨r, hdrop, h⟩ := h
  cases s with
  | nil => cases hdrop
  | cons c s =>
    rw [opens, hdrop]
    split at h
    · cases h
    · rename_i hword
      simp [hword]

theorem opens_tail {name : String} {c : Char} {s : List Char} (h : opens name (c :: s) = false) :
    opens name s = false := by
  rw [opens] at h
  split at h
  · exact (Bool.or_eq_false_iff.1 h).2
  · exact h

/-- Whether an element is opened can be seen piece by piece. -/
theorem opens_append {name : String} (hname : IsElementName name.toList) {s t : List Char} (h : s ≠ [] → Joint s t) :
    opens name (s ++ t) = (opens name s || opens name t) := by
  induction s with
  | nil => rfl
  | cons c s ih =>
    have hjoint := h (List.cons_ne_nil c s)
    have hrest := ih fun hne => hjoint.tail hne
    have hdrop := dropStart?_mark_append hname (List.cons_ne_nil c s) hjoint
    rw [List.cons_append] at hdrop ⊢
    rw [opens, hdrop, hrest, opens]
    cases hmark : dropStart? ('<' :: name.toList) (c :: s) with
    | none => rfl
    | some r =>
      have hword : beginsWithWordChar (r ++ t) = beginsWithWordChar r := by
        cases r with
        | cons d r => rfl
        | nil =>
          have hstart : Joint [] t := hjoint.of_append (eq_append_of_dropStart? hmark) (by simp [hname.closing])
          cases t with
          | nil => rfl
          | cons d t =>
            obtain rfl : d = '<' := hstart.elim (fun hd => hd d rfl) fun hlast => by cases hlast
            rfl
      simp only [Option.map_some, hword, Bool.or_assoc]

theorem elementsFrom_append {name : String} (hname : IsElementName name.toList) {s t : List Char}
    (h : opens name s = false) (ht : ∀ d ∈ t.head?, d = '<') :
    elementsFrom name.toList 0 (s ++ t) = elementsFrom name.toList 0 t := by
  induction s with
  | nil => rfl
  | cons c s ih =>
    exact (elementsFrom_cons (afterOpening?_of_not_opens hname h ht)).trans (ih (opens_tail h))

theorem opening?_of_not_opens {name : String} (hname : IsElementName name.toList) {s t : List Char}
    (h : opens name s = false) (ht : ∀ d ∈ t.head?, d = '<') :
    opening? name.toList (s ++ t) = opening? name.toList t := by
  induction s with
  | nil => rfl
  | cons c s ih =>
    have hopening := afterOpening?_of_not_opens hname h ht
    rw [List.cons_append] at hopening ⊢
    rw [opening?, hopening, Option.none_or, ih (opens_tail h)]

/-! ## Texts without elements -/

theorem opens_of_not_mem (name : String) {s : List Char} (h : '<' ∉ s) : opens name s = false := by
  induction s with
  | nil => rfl
  | cons c s ih =>
    rw [List.mem_cons, not_or] at h
    rw [opens, dropStart?, if_neg h.1]
    exact ih h.2

theorem elements_of_not_opens {name : String} (hname : IsElementName name.toList) {s : List Char}
    (h : opens name s = false) : elements name s = [] := by
  have helements := elementsFrom_append hname (t := []) h (by simp)
  rwa [List.append_nil] at helements

theorem untilClosing?_of_not_mem (name : List Char) {s : List Char} (h : '<' ∉ s) : untilClosing? name s = none := by
  induction s with
  | nil => rfl
  | cons c s ih =>
    rw [List.mem_cons, not_or] at h
    have hclosing : afterClosing? name (c :: s) = none := by
      rw [afterClosing?, dropStart?, if_neg h.1]
      rfl
    rw [untilClosing?, hclosing, ih h.2]
    rfl

theorem opening?_of_not_mem (name : List Char) {s : List Char} (h : '<' ∉ s) : opening? name s = none := by
  induction s with
  | nil => rfl
  | cons c s ih =>
    rw [List.mem_cons, not_or] at h
    have hopening : afterOpening? name (c :: s) = none := by
      rw [afterOpening?, dropStart?, if_neg h.1]
      rfl
    rw [opening?, hopening, ih h.2]
    rfl

/-- A tag of another name closes no element. -/
theorem untilClosing?_mark {name s : List Char} (h : '<' ∉ s) (hname : dropStart? ('/' :: name) s = none) :
    untilClosing? name ('<' :: s) = none := by
  have hclosing : afterClosing? name ('<' :: s) = none := by
    rw [afterClosing?, dropStart?, if_pos rfl, hname]
    rfl
  rw [untilClosing?, hclosing, untilClosing?_of_not_mem name h]
  rfl

/-- A tag of another name opens none. -/
theorem opening?_mark {name s : List Char} (h : '<' ∉ s) (hname : dropStart? name s = none) :
    opening? name ('<' :: s) = none := by
  have hopening : afterOpening? name ('<' :: s) = none := by
    rw [afterOpening?, dropStart?, if_pos rfl, hname]
    rfl
  rw [opening?, hopening, opening?_of_not_mem name h]
  rfl

end TypeBridge.Documentation
