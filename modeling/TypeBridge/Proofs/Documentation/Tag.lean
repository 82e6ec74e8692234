import TypeBridge.Documentation.Tag
import TypeBridge.Proofs.Text.Substitution
import TypeBridge.Proofs.Text.Trim

/-!
# Tags and references

What the finders find, as texts put together. A tag runs to the first `>`, and taking out all tags of a text leaves
none: what is put together again when a tag is gone cannot be a tag itself.

Results:
* `findTag_eq_some_iff`, `findReference_eq_some`: tags and references.
* `tagFree_iff`, `tagFree_substitute_findTag`: texts without tags.
-/
namespace TypeBridge.Documentation

open Text

theorem exists_trimStart (s : List Char) : ∃ blanks, isBlankText blanks = true ∧ s = blanks ++ trimStart s :=
  ⟨s.takeWhile isBlank, List.all_takeWhile, List.takeWhile_append_dropWhile.symm⟩

/-! ## Tags -/

theorem findTag_eq_some_iff {s text rest : List Char} : findTag s = some (text, rest) ↔
    text = [] ∧ ∃ inner, inner ≠ [] ∧ '>' ∉ inner ∧ s = '<' :: (inner ++ '>' :: rest) := by
  constructor
  · intro h
    unfold findTag at h
    split at h
    · rename_i c r
      split at h
      · cases h
      · rename_i hc
        split at h
        · rename_i before after hsplit
          cases h
          obtain ⟨rfl, hmem⟩ := splitFirst_eq_some hsplit
          exact ⟨rfl, c :: before, List.cons_ne_nil _ _, by simp [hmem, Ne.symm hc], rfl⟩
        · cases h
    · cases h
  · rintro ⟨rfl, inner, hne, hmem, rfl⟩
    obtain ⟨c, inner, rfl⟩ := List.exists_cons_of_ne_nil hne
    rw [List.mem_cons, not_or] at hmem
    simp only [List.cons_append, findTag, if_neg (Ne.symm hmem.1), splitFirst_eq inner rest hmem.2]

/-- A `<` begins a tag when a `>` follows that is not the next character. -/
theorem findTag_ne_none {c : Char} (hc : c ≠ '>') {r : List Char} (h : '>' ∈ r) : findTag ('<' :: c :: r) ≠ none := by
  obtain ⟨inner, rest, rfl, hinner⟩ := List.eq_append_cons_of_mem h
  have hfound : findTag ('<' :: c :: (inner ++ '>' :: rest)) = some ([], rest) :=
    findTag_eq_some_iff.2 ⟨rfl, c :: inner, List.cons_ne_nil _ _, by simp [hinner, Ne.symm hc], rfl⟩
  rw [hfound]
  exact Option.some_ne_none _

theorem findTag_of_ne {c : Char} (h : c ≠ '<') (r : List Char) : findTag (c :: r) = none := by
  unfold findTag
  split
  · rename_i heq
    exact absurd (List.cons.inj heq).1 h
  · rfl

/-- A `<` begins no tag when `>` is the next character, or when there is none after it. -/
theorem findTag_eq_none_iff {s : List Char} : findTag ('<' :: s) = none ↔ (∃ r, s = '>' :: r) ∨ '>' ∉ s := by
  constructor
  · intro h
    match s, h with
    | [], _ => exact .inr (by simp)
    | c :: r, h =>
      by_cases hc : c = '>'
      · exact .inl ⟨r, by rw [hc]⟩
      · refine .inr ?_
        rw [List.mem_cons, not_or]
        exact ⟨Ne.symm hc, fun hmem => findTag_ne_none hc hmem h⟩
  · rintro (⟨r, rfl⟩ | hmem)
    · rfl
    · cases hfind : findTag ('<' :: s) with
      | none => rfl
      | some result =>
        obtain ⟨-, inner, -, -, heq⟩ := findTag_eq_some_iff.1 hfind
        exact absurd (by simp [(List.cons.inj heq).2]) hmem

theorem advances_findTag : Advances findTag := by
  intro s text rest h
  obtain ⟨-, inner, -, -, rfl⟩ := findTag_eq_some_iff.1 h
  exact ⟨'<' :: (inner ++ ['>']), List.cons_ne_nil _ _, by simp⟩

/-! ## Texts without tags -/

/-- What it means that a text has no tag: no `<` with one or more characters other than `>` after it and then `>`. -/
def TagFree (s : List Char) : Prop := ∀ inner, inner ≠ [] → '>' ∉ inner → ¬ '<' :: (inner ++ ['>']) <:+: s

theorem tagFree_nil : TagFree [] := fun inner _ _ h => by simpa using h.length_le

theorem tagFree_cons_iff {c : Char} {r : List Char} : TagFree (c :: r) ↔ findTag (c :: r) = none ∧ TagFree r := by
  constructor
  · intro h
    refine ⟨?_, fun inner hne hmem hwithin => h inner hne hmem (hwithin.trans (List.suffix_cons c r).isInfix)⟩
    cases hfind : findTag (c :: r) with
    | none => rfl
    | some result =>
      obtain ⟨text, rest⟩ := result
      obtain ⟨-, inner, hne, hmem, heq⟩ := findTag_eq_some_iff.1 hfind
      refine absurd ?_ (h inner hne hmem)
      rw [heq]
      exact ⟨[], rest, by simp⟩
  · rintro ⟨hfind, hr⟩ inner hne hmem hwithin
    rcases List.infix_cons_iff.1 hwithin with ⟨rest, hrest⟩ | hwithin
    · have hfound : findTag (c :: r) = some ([], rest) :=
        findTag_eq_some_iff.2 ⟨rfl, inner, hne, hmem, by rw [← hrest]; simp⟩
      rw [hfound] at hfind
      cases hfind
    · exact hr inner hne hmem hwithin

theorem tagFree_iff {s : List Char} : TagFree s ↔ ∀ t, t <:+ s → findTag t = none := by
  induction s with
  | nil =>
    refine iff_of_true tagFree_nil fun t ht => ?_
    rw [List.suffix_nil.1 ht]
    rfl
  | cons c r ih =>
    rw [tagFree_cons_iff, ih]
    constructor
    · rintro ⟨hfind, hr⟩ t ht
      rcases List.suffix_cons_iff.1 ht with rfl | ht
      · exact hfind
      · exact hr t ht
    · exact fun h => ⟨h _ List.suffix_rfl, fun t ht => h t (ht.trans (List.suffix_cons c r))⟩

theorem substitute_findTag_subset (s : List Char) : substitute findTag s ⊆ s :=
  substitute_subset advances_findTag (fun _ _ _ h => (findTag_eq_some_iff.1 h).1 ▸ List.nil_subset _) s

/-- When all tags are taken out of a text, no tag is left: a `<` that stays has a `>` right after it, which stays as
well, or has none after it at all. -/
theorem tagFree_substitute_findTag (s : List Char) : TagFree (substitute findTag s) := by
  induction s using substitute_induction advances_findTag with
  | nil => exact tagFree_nil
  | found part text rest hfind ih => rwa [(findTag_eq_some_iff.1 hfind).1]
  | cons c r hfind ih =>
    refine tagFree_cons_iff.2 ⟨?_, ih⟩
    by_cases hc : c = '<'
    · subst hc
      refine findTag_eq_none_iff.2 ((findTag_eq_none_iff.1 hfind).imp ?_ ?_)
      · rintro ⟨r, rfl⟩
        exact ⟨substitute findTag r, substitute_cons (findTag_of_ne (by decide) r)⟩
      · exact mt fun h => substitute_findTag_subset r h
    · exact findTag_of_ne hc _

theorem hasTag_of_not_mem {s : List Char} (h : '<' ∉ s) : hasTag s = false := by
  induction s with
  | nil => rfl
  | cons c s ih =>
    rw [List.mem_cons, not_or] at h
    rw [hasTag, findTag_of_ne (Ne.symm h.1), ih h.2]
    rfl

/-! ## References -/

/-- What a reference is: a self-closing tag with one of the given names, one of the given keys and a quoted value. -/
inductive IsReference (names keys : List String) : List Char → List Char → Prop
  | tag {name key : String} {first before after last value : List Char} :
    name ∈ names → key ∈ keys → first ≠ [] → isBlankText first = true → isBlankText before = true →
    isBlankText after = true → isBlankText last = true → '"' ∉ value →
    IsReference names keys
      ('<' :: (name.toList ++ (first ++ (key.toList ++ (before ++ '=' :: (after ++
        '"' :: (value ++ '"' :: (last ++ ['/', '>'])))))))) value

theorem afterTagName?_eq_some {names : List String} {s rest : List Char} (h : afterTagName? names s = some rest) :
    ∃ name ∈ names, ∃ blanks, blanks ≠ [] ∧ isBlankText blanks = true ∧
      s = '<' :: (name.toList ++ (blanks ++ rest)) := by
  obtain ⟨name, hname, h⟩ := List.exists_of_findSome?_eq_some h
  split at h
  · rename_i c r hdrop
    split at h
    · rename_i hc
      cases h
      obtain ⟨blanks, hblanks, hr⟩ := exists_trimStart r
      refine ⟨name, hname, c :: blanks, List.cons_ne_nil _ _, ?_, ?_⟩
      · rw [isBlankText, List.all_cons, hc, ← isBlankText, hblanks, Bool.and_self]
      · rw [eq_append_of_dropStart? hdrop]
        conv_lhs => rw [hr]
        simp
    · cases h
  · cases h

theorem afterWord?_eq_some {words : List String} {s rest : List Char} (h : afterWord? words s = some rest) :
    ∃ word ∈ words, ∃ blanks, isBlankText blanks = true ∧ s = word.toList ++ (blanks ++ rest) := by
  obtain ⟨r, hr, rfl⟩ := Option.map_eq_some_iff.1 h
  obtain ⟨word, hword, hdrop⟩ := List.exists_of_findSome?_eq_some hr
  obtain ⟨blanks, hblanks, hr⟩ := exists_trimStart r
  refine ⟨word, hword, blanks, hblanks, ?_⟩
  rw [eq_append_of_dropStart? hdrop]
  conv_lhs => rw [hr]

theorem findReference_eq_some {names keys : List String} {render : List Char → List Char}
    {s text rest : List Char} (h : findReference names keys render s = some (text, rest)) :
    ∃ part value, IsReference names keys part value ∧ s = part ++ rest ∧ text = render value := by
  simp only [findReference, Option.bind_eq_bind, Option.bind_eq_some_iff] at h
  obtain ⟨r₁, h₁, r₂, h₂, r₃, h₃, h⟩ := h
  obtain ⟨name, hname, first, hne, hfirst, rfl⟩ := afterTagName?_eq_some h₁
  obtain ⟨key, hkey, before, hbefore, rfl⟩ := afterWord?_eq_some h₂
  obtain ⟨word, hword, after, hafter, rfl⟩ := afterWord?_eq_some h₃
  obtain rfl := List.mem_singleton.1 hword
  split at h
  · rename_i r
    simp only [Option.bind_eq_some_iff] at h
    obtain ⟨r₄, h₄, r₅, h₅, heq⟩ := h
    obtain ⟨rfl, rfl⟩ := Prod.mk.inj (Option.some.inj heq)
    obtain ⟨hr, hvalue⟩ := splitFirst_eq_some (Prod.ext rfl h₄ : splitFirst '"' r = (_, some r₄))
    obtain ⟨last, hlast, hr₄⟩ := exists_trimStart r₄
    rw [eq_append_of_dropStart? h₅] at hr₄
    refine ⟨_, _, .tag hname hkey hne hfirst hbefore hafter hlast hvalue, ?_, rfl⟩
    conv_lhs => rw [hr, hr₄]
    simp
  · cases h

/-! ## Finding references -/

/-- What it means that words can be told apart from what stands around them, and from each other. -/
structure AreWords (words : List String) : Prop where
  ne_nil : ∀ word ∈ words, word.toList ≠ []
  alphanumeric : ∀ word ∈ words, word.toList.all Char.isAlphanum = true

theorem AreWords.isAlphanum {words : List String} (h : AreWords words) {word : String} (hword : word ∈ words) {c : Char}
    (hc : c ∈ word.toList) : c.isAlphanum = true :=
  List.all_eq_true.1 (h.alphanumeric word hword) c hc

theorem AreWords.not_mem {words : List String} (h : AreWords words) {word : String} (hword : word ∈ words) {c : Char}
    (hc : c.isAlphanum = false) : c ∉ word.toList :=
  fun hmem => Bool.noConfusion (hc.symm.trans (h.isAlphanum hword hmem))

/-- What it means that no word begins with another one. -/
def IsPrefixFree (words : List String) : Prop :=
  ∀ word ∈ words, ∀ other ∈ words, word.toList <+: other.toList → word = other

theorem findSome?_eq_some {α β : Type} {f : α → Option β} {l : List α} {a : α} {b : β} (ha : a ∈ l) (hfa : f a = some b)
    (hunique : ∀ a' ∈ l, ∀ b', f a' = some b' → b' = b) : l.findSome? f = some b := by
  cases hfind : l.findSome? f with
  | none =>
    rw [List.findSome?_eq_none_iff] at hfind
    exact absurd ((hfind a ha).symm.trans hfa) (by simp)
  | some b' =>
    obtain ⟨a', ha', hb'⟩ := List.exists_of_findSome?_eq_some hfind
    rw [hunique a' ha' b' hb']

theorem AreWords.trimStart_append {words : List String} (h : AreWords words) {word : String} (hword : word ∈ words)
    (s : List Char) : trimStart (word.toList ++ s) = word.toList ++ s := by
  obtain ⟨c, r, hcons⟩ := List.exists_cons_of_ne_nil (h.ne_nil word hword)
  have hc : isBlank c = false := not_isBlank_of_isAlphanum (h.isAlphanum hword (by simp [hcons]))
  rw [hcons, List.cons_append]
  exact List.dropWhile_cons_of_neg (by simp [hc])

theorem afterWord?_append {words : List String} (h : IsPrefixFree words) {word : String} (hword : word ∈ words)
    (s : List Char) : afterWord? words (word.toList ++ s) = some (trimStart s) := by
  refine Option.map_eq_some_iff.2 ⟨s, ?_, rfl⟩
  refine findSome?_eq_some hword (dropStart?_append _ s) fun other hother rest hdrop => ?_
  have hrest := eq_append_of_dropStart? hdrop
  -- Both words stand at the beginning, so one of them begins with the other.
  have heq : other = word := by
    rcases List.prefix_or_prefix_of_prefix ⟨rest, hrest.symm⟩ (List.prefix_append word.toList s) with hpre | hpre
    · exact h other hother word hword hpre
    · exact (h word hword other hother hpre).symm
  rw [heq] at hrest
  exact (List.append_cancel_left hrest).symm

theorem afterTagName?_append {names : List String} (h : AreWords names) {name : String} (hname : name ∈ names)
    {blanks : List Char} (hne : blanks ≠ []) (hblanks : isBlankText blanks = true) (s : List Char) :
    afterTagName? names ('<' :: (name.toList ++ (blanks ++ s))) = some (trimStart s) := by
  obtain ⟨c, r, rfl⟩ := List.exists_cons_of_ne_nil hne
  rw [isBlankText, List.all_cons, Bool.and_eq_true] at hblanks
  have hend (other : String) (hother : other ∈ names) (rest : List Char) (d : Char) (hd : isBlank d = true) :
      (other.toList ++ d :: rest).takeWhile (!isBlank ·) = other.toList := by
    rw [List.takeWhile_append_of_pos, List.takeWhile_cons_of_neg (by simp [hd]), List.append_nil]
    intro e he
    rw [not_isBlank_of_isAlphanum (h.isAlphanum hother he)]
    rfl
  refine findSome?_eq_some hname ?_ fun other hother rest hfound => ?_
  · have hdrop : dropStart? ('<' :: name.toList) ('<' :: (name.toList ++ (c :: r ++ s))) = some (c :: (r ++ s)) :=
      dropStart?_append ('<' :: name.toList) _
    rw [hdrop]
    simp only [hblanks.1, if_true]
    rw [trimStart_append_of_isBlankText hblanks.2]
  · split at hfound
    · rename_i d u hdrop
      split at hfound
      · rename_i hd
        obtain rfl := Option.some.inj hfound
        have heq : name.toList ++ c :: (r ++ s) = other.toList ++ d :: u := by
          have hdrop := (List.cons.inj (eq_append_of_dropStart? hdrop)).2
          rwa [List.cons_append] at hdrop
        -- A name ends at the first blank.
        have hnames := congrArg (List.takeWhile (!isBlank ·)) heq
        rw [hend name hname _ c hblanks.1, hend other hother _ d hd] at hnames
        rw [hnames] at heq
        obtain ⟨-, rfl⟩ := List.cons.inj (List.append_cancel_left heq)
        exact trimStart_append_of_isBlankText hblanks.2 s
      · cases hfound
    · cases hfound

/-- A reference is found whatever stands after it. -/
theorem findReference_append {names keys : List String} (hnames : AreWords names) (hkeys : AreWords keys)
    (hfree : IsPrefixFree keys) (render : List Char → List Char) {part value : List Char}
    (h : IsReference names keys part value) (rest : List Char) :
    findReference names keys render (part ++ rest) = some (render value, rest) := by
  cases h with
  | @tag name key first before after last _ hname hkey hne hfirst hbefore hafter hlast hvalue =>
    have hquoted : splitFirst '"' (value ++ '"' :: (last ++ '/' :: '>' :: rest)) =
        (value, some (last ++ '/' :: '>' :: rest)) := splitFirst_eq value _ hvalue
    have hend : dropStart? ['/', '>'] (trimStart (last ++ '/' :: '>' :: rest)) = some rest := by
      rw [trimStart_append_of_isBlankText hlast]
      rfl
    have hvalue : afterWord? ["="] ('=' :: (after ++ '"' :: (value ++ '"' :: (last ++ '/' :: '>' :: rest)))) =
        some ('"' :: (value ++ '"' :: (last ++ '/' :: '>' :: rest))) :=
      congrArg some (trimStart_append_of_isBlankText hafter _)
    have hkey' : afterWord? keys (key.toList ++ (before ++ '=' :: (after ++
        '"' :: (value ++ '"' :: (last ++ '/' :: '>' :: rest))))) = some ('=' :: (after ++
        '"' :: (value ++ '"' :: (last ++ '/' :: '>' :: rest)))) :=
      (afterWord?_append hfree hkey _).trans (congrArg some (trimStart_append_of_isBlankText hbefore _))
    simp only [List.cons_append, List.append_assoc, List.nil_append]
    rw [findReference, afterTagName?_append hnames hname hne hfirst, hkeys.trimStart_append hkey]
    simp only [Option.bind_eq_bind, Option.bind_some, hkey', hvalue, hquoted, hend]

theorem IsReference.ne_nil {names keys : List String} {part value : List Char}
    (h : IsReference names keys part value) : part ≠ [] := by
  cases h
  exact List.cons_ne_nil _ _

theorem IsReference.value_subset {names keys : List String} {part value : List Char}
    (h : IsReference names keys part value) : value ⊆ part := by
  cases h
  intro c hc
  simp [hc]

theorem advances_findReference (names keys : List String) (render : List Char → List Char) :
    Advances (findReference names keys render) := by
  intro s text rest h
  obtain ⟨part, value, href, rfl, -⟩ := findReference_eq_some h
  exact ⟨part, href.ne_nil, rfl⟩

/-- What it means that a name can be that of a tag. -/
def IsTagName (name : String) : Prop := name.toList ≠ [] ∧ '>' ∉ name.toList

instance : DecidablePred IsTagName := fun _ => inferInstanceAs (Decidable (_ ∧ _))

/-- A reference is a tag, or at least begins like one. -/
theorem IsReference.findTag_ne_none {names keys : List String} {part value : List Char}
    (h : IsReference names keys part value) (hnames : ∀ name ∈ names, IsTagName name) (rest : List Char) :
    findTag (part ++ rest) ≠ none := by
  cases h with
  | tag hname =>
    obtain ⟨hne, hmem⟩ := hnames _ hname
    obtain ⟨c, r, hcons⟩ := List.exists_cons_of_ne_nil hne
    rw [hcons] at hmem ⊢
    rw [List.mem_cons, not_or] at hmem
    rw [List.cons_append, List.cons_append, List.cons_append]
    exact Documentation.findTag_ne_none (Ne.symm hmem.1) (by simp)

/-- A text without tags has no references. -/
theorem TagFree.substitute_findReference {s : List Char} (h : TagFree s) {names : List String}
    (hnames : ∀ name ∈ names, IsTagName name) (keys : List String) (render : List Char → List Char) :
    substitute (findReference names keys render) s = s := by
  refine substitute_eq_self fun t ht => ?_
  cases hfind : findReference names keys render t with
  | none => rfl
  | some result =>
    obtain ⟨part, value, href, rfl, -⟩ := findReference_eq_some hfind
    exact absurd (tagFree_iff.1 h _ ht) (href.findTag_ne_none hnames _)

theorem TagFree.substitute_findTag {s : List Char} (h : TagFree s) : substitute findTag s = s :=
  substitute_eq_self (tagFree_iff.1 h)

end TypeBridge.Documentation
