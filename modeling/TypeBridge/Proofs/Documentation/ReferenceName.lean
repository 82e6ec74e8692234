import TypeBridge.Proofs.Documentation.Markup

/-!
# Names in the place of references

A tag such as `<see cref="T:A.B(C)"/>` is a reference. What a reader should see in its place depends on its key: of a
declaration the last of its dotted names with the type arguments in braces, of a link the link, and of a keyword the
keyword. One function makes that text for all three keys: it leaves out the letter of a kind, what is after the first
`(`, and what is before the last `.`, without regard to braces or to the key. So a dot between type arguments cuts
into them and leaves a brace that is not opened, and of a link hardly more than its last part is left.

Results:
* `afterLast_append_cons`, `exists_afterLast`: the text after the last of some character.
* `IsBalanced.count_eq`, `IsName.count_lt`: braces, and what is after a dot between type arguments.
* `flatten_reference`, `flatten_tag`: what takes the place of a reference, and of another tag.
* `referenceName_iff`: the exact conditions.
-/
namespace TypeBridge.Text

/-! ## The last part of a text -/

theorem afterLast_append_cons (c : Char) (s t : List Char) : afterLast c (s ++ c :: t) = afterLast c t := by
  rw [afterLast, List.reverse_append, List.reverse_cons, List.append_assoc, List.singleton_append,
    takeWhile_append_cons (by simp)]
  rfl

theorem not_mem_takeWhile_ne (c : Char) (s : List Char) : c ∉ s.takeWhile (· != c) := by
  intro h
  have hne := List.mem_takeWhile_imp h
  simp at hne

theorem takeWhile_ne_of_not_mem {c : Char} {s : List Char} (h : c ∉ s) : s.takeWhile (· != c) = s := by
  refine List.takeWhile_eq_self_iff.2 fun d hd => bne_iff_ne.2 ?_
  rintro rfl
  exact h hd

theorem not_mem_afterLast (c : Char) (s : List Char) : c ∉ afterLast c s :=
  mt List.mem_reverse.1 (not_mem_takeWhile_ne c s.reverse)

theorem afterLast_of_not_mem {c : Char} {s : List Char} (h : c ∉ s) : afterLast c s = s := by
  rw [afterLast, takeWhile_ne_of_not_mem (mt List.mem_reverse.1 h), List.reverse_reverse]

theorem sublist_afterLast (c : Char) (s : List Char) : (afterLast c s).Sublist s :=
  List.reverse_sublist.1 ((List.reverse_reverse _).symm ▸ List.takeWhile_sublist _)

theorem afterLast_eq_self_iff {c : Char} {s : List Char} : afterLast c s = s ↔ c ∉ s :=
  ⟨fun h => h ▸ not_mem_afterLast c s, afterLast_of_not_mem⟩

theorem exists_afterLast {c : Char} {s : List Char} (h : c ∈ s) : ∃ before, s = before ++ c :: afterLast c s := by
  obtain ⟨after, before, hs, hafter⟩ := List.eq_append_cons_of_mem (List.mem_reverse.2 h)
  have hparts : s = before.reverse ++ c :: after.reverse := by
    rw [← List.reverse_reverse s, hs]
    simp
  refine ⟨before.reverse, ?_⟩
  conv_rhs => rw [hparts, afterLast_append_cons, afterLast_of_not_mem (mt List.mem_reverse.1 hafter)]
  exact hparts

theorem splitFirst_fst (c : Char) (s : List Char) : (splitFirst c s).1 = s.takeWhile (· != c) := by
  by_cases h : c ∈ s
  · obtain ⟨before, after, rfl, hbefore⟩ := List.eq_append_cons_of_mem h
    rw [splitFirst_eq before after hbefore, takeWhile_append_cons (by simp), takeWhile_ne_of_not_mem hbefore]
  · rw [splitFirst_of_not_mem h, takeWhile_ne_of_not_mem h]

end TypeBridge.Text

namespace TypeBridge.Documentation

open Text

/-! ## Names with type arguments -/

/-- What it means that all braces of a text are closed. -/
inductive IsBalanced : List Char → Prop
  | nil : IsBalanced []
  | char {c : Char} {s : List Char} : c ≠ '{' → c ≠ '}' → IsBalanced s → IsBalanced (c :: s)
  | braces {inner s : List Char} : IsBalanced inner → IsBalanced s → IsBalanced ('{' :: (inner ++ '}' :: s))

/-- What one name is between the dots of a longer one: it can have type arguments in braces, and only these have
dots. -/
inductive IsName : List Char → Prop
  | nil : IsName []
  | char {c : Char} {s : List Char} : c ≠ '{' → c ≠ '}' → c ≠ '.' → IsName s → IsName (c :: s)
  | arguments {inner s : List Char} : IsBalanced inner → IsName s → IsName ('{' :: (inner ++ '}' :: s))

theorem isBalanced_of_not_mem {s : List Char} (hopen : '{' ∉ s) (hclose : '}' ∉ s) : IsBalanced s := by
  induction s with
  | nil => exact .nil
  | cons c s ih =>
    rw [List.mem_cons, not_or] at hopen hclose
    exact .char (Ne.symm hopen.1) (Ne.symm hclose.1) (ih hopen.2 hclose.2)

theorem IsName.append {s t : List Char} (hopen : '{' ∉ s) (hclose : '}' ∉ s) (hdot : '.' ∉ s) (ht : IsName t) :
    IsName (s ++ t) := by
  induction s with
  | nil => exact ht
  | cons c s ih =>
    rw [List.mem_cons, not_or] at hopen hclose hdot
    exact .char (Ne.symm hopen.1) (Ne.symm hclose.1) (Ne.symm hdot.1) (ih hopen.2 hclose.2 hdot.2)

theorem IsName.isBalanced {s : List Char} (h : IsName s) : IsBalanced s := by
  induction h with
  | nil => exact .nil
  | char hopen hclose _ _ ih => exact .char hopen hclose ih
  | arguments hinner _ ih => exact .braces hinner ih

theorem IsBalanced.count_eq {s : List Char} (h : IsBalanced s) : s.count '{' = s.count '}' := by
  induction h with
  | nil => rfl
  | char hopen hclose _ ih => rw [List.count_cons_of_ne hopen, List.count_cons_of_ne hclose, ih]
  | braces _ _ ihinner ih =>
    rw [List.count_cons_self, List.count_append, List.count_cons_of_ne (by decide), List.count_cons_of_ne (by decide),
      List.count_append, List.count_cons_self, ihinner, ih, Nat.add_assoc]

/-- What stands at the end of a text that is put together of two, with a brace between them, and begins in the first
one or with the brace. -/
theorem suffix_braces {inner s t : List Char} (h : t <:+ inner ++ '}' :: s) :
    t <:+ s ∨ ∃ u, u <:+ inner ∧ t = u ++ '}' :: s := by
  obtain ⟨before, h⟩ := h
  rcases List.append_eq_append_iff.1 h with ⟨u, rfl, ht⟩ | ⟨u, rfl, hs⟩
  · exact .inr ⟨u, List.suffix_append before u, ht⟩
  · cases u with
    | nil => exact .inr ⟨[], List.nil_suffix, by simpa using hs.symm⟩
    | cons c u => exact .inl ⟨u, (List.cons.inj hs).2.symm⟩

/-- At the end of a balanced text no brace is opened more often than closed. -/
theorem IsBalanced.count_le {s : List Char} (h : IsBalanced s) {t : List Char} (ht : t <:+ s) :
    t.count '{' ≤ t.count '}' := by
  induction h generalizing t with
  | nil => simp [List.suffix_nil.1 ht]
  | @char c s hopen hclose hs ih =>
    rcases List.suffix_cons_iff.1 ht with rfl | ht
    · exact (IsBalanced.char hopen hclose hs).count_eq.le
    · exact ih ht
  | @braces inner s hinner hs ihinner ih =>
    rcases List.suffix_cons_iff.1 ht with rfl | ht
    · exact (IsBalanced.braces hinner hs).count_eq.le
    · rcases suffix_braces ht with ht | ⟨u, hu, rfl⟩
      · exact ih ht
      · have hu := ihinner hu
        have hs := hs.count_eq
        simp only [List.count_append, List.count_cons_self, List.count_cons_of_ne (show '}' ≠ '{' by decide)]
        omega

/-- A dot of a name stands in braces, so one of them is closed behind it that is not opened there. -/
theorem IsName.count_lt {s t : List Char} (h : IsName s) (ht : '.' :: t <:+ s) : t.count '{' < t.count '}' := by
  induction h generalizing t with
  | nil => cases List.suffix_nil.1 ht
  | @char c s hopen hclose hdot hs ih =>
    rcases List.suffix_cons_iff.1 ht with heq | ht
    · exact absurd (List.cons.inj heq).1.symm hdot
    · exact ih ht
  | @arguments inner s hinner hs ih =>
    rcases List.suffix_cons_iff.1 ht with heq | ht
    · exact absurd (List.cons.inj heq).1 (by decide)
    · rcases suffix_braces ht with ht | ⟨u, hu, heq⟩
      · exact ih ht
      · cases u with
        | nil => exact absurd (List.cons.inj heq).1 (by decide)
        | cons d u =>
          rw [List.cons_append] at heq
          obtain ⟨-, rfl⟩ := List.cons.inj heq
          have hu := hinner.count_le ((List.suffix_cons d u).trans hu)
          have hs := hs.isBalanced.count_eq
          simp only [List.count_append, List.count_cons_self, List.count_cons_of_ne (show '}' ≠ '{' by decide)]
          omega

/-! ## What a reader should see -/

/-- What a reference to a declaration is made of: the names of all that it stands in, its own name, and in
parentheses the types of its parameters. -/
inductive IsSymbol : List Char → List Char → Prop
  | mk {around : List (List Char)} {name parameters : List Char} :
    (∀ outer ∈ around, IsName outer ∧ '(' ∉ outer) → IsName name → name ≠ [] → '(' ∉ name →
    (∀ c ∈ parameters.head?, c = '(') → IsSymbol (around.flatMap (· ++ ['.']) ++ (name ++ parameters)) name

/-- Whether a reference begins with the letter of a kind. -/
def hasKind : List Char → Bool
  | c :: ':' :: _ => c.isUpper
  | _ => false

/-- What a reference with the given key and value is called. -/
inductive IsCalled : String → List Char → List Char → Prop
  | symbol {symbol name : List Char} : hasKind symbol = false → IsSymbol symbol name → IsCalled "cref" symbol name
  | kind {c : Char} {symbol name : List Char} : c.isUpper = true → IsSymbol symbol name →
    IsCalled "cref" (c :: ':' :: symbol) name
  | link {link : List Char} : link ≠ [] → IsCalled "href" link link
  | keyword {word : List Char} : word ≠ [] → (∀ c ∈ word, c.isLower = true) → IsCalled "langword" word word

/-- What it means that nothing in a name is taken for a part of a longer reference. -/
def IsUndivided (key : String) (name : List Char) : Prop :=
  '.' ∉ name ∧ (key = "href" → '(' ∉ name ∧ hasKind name = false)

instance (key : String) (name : List Char) : Decidable (IsUndivided key name) :=
  inferInstanceAs (Decidable (_ ∧ _))

/-! ## What is put there -/

theorem displayName_of_hasKind_eq_false {reference : List Char} (h : hasKind reference = false) :
    displayName reference = afterLast '.' (reference.takeWhile (· != '(')) := by
  rw [← splitFirst_fst]
  unfold displayName
  split
  · rename_i c r
    have hc : c.isUpper = false := h
    simp only [hc, Bool.false_eq_true, if_false]
  · rfl

theorem displayName_kind {c : Char} (h : c.isUpper = true) (reference : List Char) :
    displayName (c :: ':' :: reference) = afterLast '.' (reference.takeWhile (· != '(')) := by
  rw [displayName]
  simp only [h, if_true, splitFirst_fst]

/-- The names around a declaration are left out. -/
theorem IsSymbol.afterLast_eq {symbol name : List Char} (h : IsSymbol symbol name) :
    afterLast '.' (symbol.takeWhile (· != '(')) = afterLast '.' name := by
  cases h with
  | @mk around name parameters haround _ _ hname hparameters =>
    have hqualifier : '(' ∉ around.flatMap (· ++ ['.']) := by
      intro hmem
      obtain ⟨outer, houter, hmem⟩ := List.mem_flatMap.1 hmem
      exact (List.mem_append.1 hmem).elim (haround outer houter).2 (by decide)
    have hcut : (around.flatMap (· ++ ['.']) ++ (name ++ parameters)).takeWhile (· != '(') =
        around.flatMap (· ++ ['.']) ++ name := by
      have hkeep : '(' ∉ around.flatMap (· ++ ['.']) ++ name := by simp [List.mem_append, hqualifier, hname]
      rw [← List.append_assoc]
      cases parameters with
      | nil => rw [List.append_nil, takeWhile_ne_of_not_mem hkeep]
      | cons c parameters =>
        rw [hparameters c rfl, takeWhile_append_cons (by simp), takeWhile_ne_of_not_mem hkeep]
    rw [hcut]
    clear haround hqualifier hcut
    induction around with
    | nil => rfl
    | cons outer around ih =>
      rw [List.flatMap_cons, List.append_assoc, List.append_assoc, List.singleton_append, afterLast_append_cons, ih]

theorem displayName_eq_self_iff {link : List Char} :
    displayName link = link ↔ '.' ∉ link ∧ '(' ∉ link ∧ hasKind link = false := by
  constructor
  · intro h
    cases hkind : hasKind link with
    | true =>
      -- Without the letter and the colon the text is shorter.
      unfold hasKind at hkind
      split at hkind
      · rename_i c r
        rw [displayName_kind hkind] at h
        have hle := ((sublist_afterLast '.' (r.takeWhile (· != '('))).trans (List.takeWhile_sublist _)).length_le
        rw [h, List.length_cons, List.length_cons] at hle
        omega
      · cases hkind
    | false =>
      rw [displayName_of_hasKind_eq_false hkind] at h
      refine ⟨h ▸ not_mem_afterLast '.' _, fun hmem => ?_, rfl⟩
      exact not_mem_takeWhile_ne '(' link ((sublist_afterLast '.' _).subset (h.symm ▸ hmem))
  · rintro ⟨hdot, hparameters, hkind⟩
    rw [displayName_of_hasKind_eq_false hkind, takeWhile_ne_of_not_mem hparameters, afterLast_of_not_mem hdot]

theorem isUndivided_of_isLower (key : String) {word : List Char} (h : ∀ c ∈ word, c.isLower = true) :
    IsUndivided key word := by
  have hlower {c : Char} (hc : c.isLower = false) : c ∉ word := fun hmem => Bool.noConfusion (hc.symm.trans (h c hmem))
  refine ⟨hlower (by decide), fun _ => ⟨hlower (by decide), ?_⟩⟩
  unfold hasKind
  split
  · exact absurd (by simp) (hlower (show ':'.isLower = false by decide))
  · rfl

/-- The text of a name is that of the part after its last dot. -/
theorem IsCalled.displayName_eq {key : String} {value name : List Char} (h : IsCalled key value name) :
    displayName value = name ↔ IsUndivided key name := by
  cases h with
  | symbol hkind hsymbol =>
    rw [displayName_of_hasKind_eq_false hkind, hsymbol.afterLast_eq, afterLast_eq_self_iff]
    simp [IsUndivided]
  | kind hkind hsymbol =>
    rw [displayName_kind hkind, hsymbol.afterLast_eq, afterLast_eq_self_iff]
    simp [IsUndivided]
  | link => simp [IsUndivided, displayName_eq_self_iff]
  | keyword _ hword =>
    obtain ⟨hdot, hlink⟩ := isUndivided_of_isLower "href" hword
    exact iff_of_true (displayName_eq_self_iff.2 ⟨hdot, hlink rfl⟩) (isUndivided_of_isLower "langword" hword)

theorem IsCalled.isUndivided {value name : List Char} (h : IsCalled "langword" value name) :
    IsUndivided "langword" name := by
  generalize hkey : "langword" = key at h ⊢
  cases h with
  | symbol => exact absurd hkey (by decide)
  | kind => exact absurd hkey (by decide)
  | link => exact absurd hkey (by decide)
  | keyword _ hword => exact isUndivided_of_isLower _ hword

/-- What is left of a name with a dot has a brace that is not opened. -/
theorem IsSymbol.isBalanced_iff {symbol name : List Char} (h : IsSymbol symbol name) :
    IsBalanced (afterLast '.' name) ↔ '.' ∉ name := by
  have hname : IsName name := by
    cases h
    assumption
  refine ⟨fun hbalanced hmem => ?_, fun hmem => (afterLast_of_not_mem hmem).symm ▸ hname.isBalanced⟩
  obtain ⟨before, hparts⟩ := exists_afterLast hmem
  have hlt := hname.count_lt ⟨before, hparts.symm⟩
  exact absurd hbalanced.count_eq hlt.ne

theorem IsCalled.isBalanced_iff {value name : List Char} (h : IsCalled "cref" value name) :
    IsBalanced (displayName value) ↔ '.' ∉ name := by
  generalize hkey : "cref" = key at h
  cases h with
  | symbol hkind hsymbol =>
    rw [displayName_of_hasKind_eq_false hkind, hsymbol.afterLast_eq, hsymbol.isBalanced_iff]
  | kind hkind hsymbol =>
    rw [displayName_kind hkind, hsymbol.afterLast_eq, hsymbol.isBalanced_iff]
  | link => exact absurd hkey (by decide)
  | keyword => exact absurd hkey (by decide)

/-! ## References in a text -/

/-- The names of the tags that refer to something. -/
def seeNames : List String := ["see", "seealso"]

/-- The keys of what they refer to. -/
def seeKeys : List String := ["cref", "href", "langword"]

theorem areWords_seeNames : AreWords seeNames := ⟨by decide, by decide⟩

theorem areWords_seeKeys : AreWords seeKeys := ⟨by decide, by decide⟩

theorem isPrefixFree_seeKeys : IsPrefixFree seeKeys := by
  unfold IsPrefixFree
  decide

/-- A text in which the tags that refer to something give their names. -/
def withNames (s : List Char) : List Char := substitute (findReference seeNames seeKeys displayName) s

/-- The names of the tags that name a parameter. -/
def parameterNames : List String := ["paramref", "typeparamref"]

/-- A text in which names have taken the place of references, without its other tags. -/
def afterNames (s : List Char) : List Char :=
  substitute findTag (substitute (findReference parameterNames ["name"] id) s)

theorem withoutTags_eq (s : List Char) : withoutTags s = afterNames (withNames s) := rfl

/-- The lines of such a text. -/
def namedLines (s : List Char) : List (List Char) := textLines (resolveReferences (afterNames s))

theorem IsReference.mono {names keys keys' : List String} (hkeys : keys ⊆ keys') {part value : List Char}
    (h : IsReference names keys part value) : IsReference names keys' part value := by
  cases h with
  | tag hname hkey hne hfirst hbefore hafter hlast hvalue =>
    exact .tag hname (hkeys hkey) hne hfirst hbefore hafter hlast hvalue

/-- What it means that no tag that is left open before a reference ends with its first quotation mark: the text before
has no open tag, or what is quoted in the reference does not go on as a tag ends. -/
def StandsApart (before value : List Char) : Prop := IsMarkup before ∨ ¬ ['/', '>'] <+: trimStart value

/-- A reference that runs into another one ends with the first quotation mark of the other one, so that what is quoted
there goes on as a tag ends. -/
theorem IsReference.ends_within {names keys : List String} (hnames : AreWords names) (hkeys : AreWords keys)
    {t inside part value value' after rest : List Char} (hrunning : IsReference names keys (t ++ inside) value')
    (h : IsReference names keys part value) (ht : t ≠ []) (hinside : inside ≠ [])
    (heq : part ++ after = inside ++ rest) : ['/', '>'] <+: trimStart value := by
  obtain ⟨start, last, hparts, hvalue', hstart, hlast⟩ := hrunning.exists_parts hnames hkeys
  obtain ⟨start', last', rfl, hvalue, hstart', -⟩ := h.exists_parts hnames hkeys
  obtain ⟨d, t, rfl⟩ := List.exists_cons_of_ne_nil ht
  obtain ⟨c, inside, rfl⟩ := List.exists_cons_of_ne_nil hinside
  obtain ⟨rfl, heq⟩ := List.cons.inj heq
  have hquote : '"' ∉ last ++ ['/', '>'] := by simp [not_mem_of_isBlankText hlast (show isBlank '"' = false by decide)]
  -- The other reference begins in the value that is quoted first.
  obtain ⟨quoted, -, hquoted⟩ := exists_between_marks (List.cons.inj hparts).2.symm
    (fun hmem => (hstart _ hmem).1 rfl) (by decide)
  obtain ⟨between, hbetween, hinside⟩ : ∃ between, '"' ∉ between ∧ inside = between ++ '"' :: (last ++ ['/', '>']) := by
    rcases List.append_eq_append_iff.1 hquoted with ⟨more, -, hmore⟩ | ⟨between, rfl, hbetween⟩
    · have hmem : '<' ∈ '"' :: (last ++ ['/', '>']) := by simp [hmore]
      simp [not_mem_of_isBlankText hlast (show isBlank '<' = false by decide)] at hmem
    · cases between with
      | nil => exact absurd (List.cons.inj hbetween).1 (by decide)
      | cons e between =>
        exact ⟨between, fun hmem => hvalue' (by simp [hmem]), (List.cons.inj hbetween).2⟩
  rw [hinside] at heq
  have hmarks : start' ++ '"' :: (value ++ '"' :: (last' ++ '/' :: '>' :: after)) =
      between ++ '"' :: (last ++ ['/', '>'] ++ rest) := by simpa using heq
  obtain ⟨-, hend⟩ := eq_of_append_mark (fun hmem => (hstart' _ hmem).2.2 rfl) hbetween hmarks
  have hprefix : last ++ ['/', '>'] <+: value := by
    rcases List.append_eq_append_iff.1 hend with ⟨more, hmore, hrest⟩ | ⟨more, hmore, -⟩
    · cases more with
      | nil => exact ⟨[], by simpa using hmore⟩
      | cons e more =>
        obtain ⟨rfl, -⟩ := List.cons.inj hrest
        exact absurd (by simp [hmore]) hquote
    · exact ⟨more, hmore.symm⟩
  obtain ⟨more, rfl⟩ := hprefix
  rw [List.append_assoc, trimStart_append_of_isBlankText hlast]
  exact ⟨more, rfl⟩

/-- So a reference is found whatever stands before it. -/
theorem staysIn_reference {names keys : List String} (hnames : AreWords names) (hkeys : AreWords keys)
    (hfree : IsPrefixFree keys) (render : List Char → List Char) {part value : List Char}
    (h : IsReference names keys part value) (hvalue : ¬ ['/', '>'] <+: trimStart value) (before after : List Char) :
    StaysIn (findReference names keys render) before (part ++ after) := by
  intro t hne _
  cases hfind : findReference names keys render t with
  | some result =>
    obtain ⟨text, rest⟩ := result
    obtain ⟨part', value', href, rfl, rfl⟩ := findReference_eq_some hfind
    rw [List.append_assoc, findReference_append hnames hkeys hfree render href]
    rfl
  | none =>
    -- What is found there is not found without the reference.
    have hnone {found rest value' : List Char} (href : IsReference names keys found value') (heq : t = found ++ rest) :
        False := by
      rw [heq, findReference_append hnames hkeys hfree render href] at hfind
      cases hfind
    cases hfind' : findReference names keys render (t ++ (part ++ after)) with
    | none => rfl
    | some result =>
      obtain ⟨found, value', href, heq, -⟩ := findReference_eq_some hfind'
      rcases List.append_eq_append_iff.1 heq with ⟨inside, rfl, hrest⟩ | ⟨rest, ht, -⟩
      · by_cases hinside : inside = []
        · exact (@hnone _ [] _ href (by simp [hinside])).elim
        · exact absurd (href.ends_within hnames hkeys h hne hinside hrest) hvalue
      · exact (hnone href ht).elim

/-- What takes the place of a reference. -/
theorem flatten_reference {part value before : List Char} (h : IsReference seeNames seeKeys part value)
    (hbefore : StandsApart before value) (after : List Char) :
    flatten (before ++ (part ++ after)) = namedLines (withNames before ++ (displayName value ++ withNames after)) := by
  have hpart : withNames (part ++ after) = displayName value ++ withNames after :=
    substitute_of_find h.ne_nil (findReference_append areWords_seeNames areWords_seeKeys isPrefixFree_seeKeys _ h after)
  have hwhole : withNames (before ++ (part ++ after)) = withNames before ++ withNames (part ++ after) := by
    rcases hbefore with hmarkup | hvalue
    · exact ((takesTags_findReference areWords_seeNames areWords_seeKeys isPrefixFree_seeKeys
        displayName_subset).substitute_append hmarkup).2 _
    · exact (staysIn_reference areWords_seeNames areWords_seeKeys isPrefixFree_seeKeys displayName h hvalue before
        after).substitute_append (advances_findReference _ _ _)
  rw [flatten_eq, withoutTags_eq, hwhole, hpart, namedLines]

/-- A tag in which nothing is found is taken out, and what is around it stays apart. -/
theorem flatten_tag {before inner : List Char} (hbefore : IsMarkup before) (hinner : IsTagText inner) (hne : inner ≠ [])
    (hsee : ∀ value, ¬ IsReference seeNames seeKeys ('<' :: (inner ++ ['>'])) value)
    (hparameter : ∀ value, ¬ IsReference parameterNames ["name"] ('<' :: (inner ++ ['>'])) value)
    (after : List Char) : flatten (before ++ '<' :: (inner ++ '>' :: after)) =
      textLines (resolveReferences (withoutTags before ++ withoutTags after)) := by
  have hnone {names keys : List String} (hnames : AreWords names) (hkeys : AreWords keys)
      (render : List Char → List Char) (h : ∀ value, ¬ IsReference names keys ('<' :: (inner ++ ['>'])) value)
      (s : List Char) :
      substitute (findReference names keys render) ('<' :: (inner ++ '>' :: s)) =
        '<' :: (inner ++ '>' :: substitute (findReference names keys render) s) := by
    refine (findsMarks_findReference names keys render).substitute_tag hinner.opening ?_
    cases hfind : findReference names keys render ('<' :: (inner ++ '>' :: s)) with
    | none => rfl
    | some result =>
      obtain ⟨part, value, href, heq, -⟩ := findReference_eq_some hfind
      obtain ⟨rfl, -⟩ := href.eq_tag hnames hkeys hinner heq
      exact absurd href (h value)
  have hafter : withoutTags ('<' :: (inner ++ '>' :: after)) = withoutTags after := by
    rw [withoutTags_eq, withNames, hnone areWords_seeNames areWords_seeKeys displayName hsee, afterNames,
      hnone ⟨by decide, by decide⟩ ⟨by decide, by decide⟩ id hparameter]
    exact substitute_tag (findTag_eq_some_iff.2 ⟨rfl, inner, hne, hinner.closing, rfl⟩)
  rw [flatten_eq, withoutTags_append hbefore, hafter]

/-! ## References keep their names -/

/-- In the place of a reference, wherever it stands in a text, comes one text, and this is what the reference is called
exactly when nothing in the name is taken for a part of a longer one: for a declaration a dot, which can stand between
its type arguments only, and for a link a dot, a parenthesis or the letter of a kind. A keyword always stays. The braces
of a name are closed exactly when it has no dot. A tag that is written in any other way leaves nothing. -/
theorem referenceName_iff {key : String} {part value name : List Char} (h : IsReference seeNames [key] part value)
    (hname : IsCalled key value name) :
    (∀ before after, StandsApart before value → flatten (before ++ (part ++ after)) =
        namedLines (withNames before ++ (displayName value ++ withNames after))) ∧
      (displayName value = name ↔ IsUndivided key name) ∧ (key = "langword" → IsUndivided key name) ∧
      (key = "cref" → (IsBalanced (displayName value) ↔ '.' ∉ name)) ∧
      ∀ before inner after, IsMarkup before → IsTagText inner → inner ≠ [] →
        (∀ value, ¬ IsReference seeNames seeKeys ('<' :: (inner ++ ['>'])) value) →
        (∀ value, ¬ IsReference parameterNames ["name"] ('<' :: (inner ++ ['>'])) value) →
        flatten (before ++ '<' :: (inner ++ '>' :: after)) =
          textLines (resolveReferences (withoutTags before ++ withoutTags after)) := by
  have hkey : [key] ⊆ seeKeys := by
    cases hname <;> decide
  refine ⟨fun before after hbefore => flatten_reference (h.mono hkey) hbefore after, hname.displayName_eq, ?_, ?_, ?_⟩
  · rintro rfl
    exact hname.isUndivided
  · rintro rfl
    exact hname.isBalanced_iff
  · exact fun before inner after hbefore hinner hne hsee hparameter =>
      flatten_tag hbefore hinner hne hsee hparameter after

/-- A reference to a list of numbers. -/
def listReference : List Char := "T:My.List{System.Int32}".toList

theorem referenceName_iff_listReference :
    IsReference seeNames ["cref"] "<see cref=\"T:My.List{System.Int32}\"/>".toList listReference ∧
      IsCalled "cref" listReference "List{System.Int32}".toList ∧
      displayName listReference ≠ "List{System.Int32}".toList ∧ ¬ IsBalanced (displayName listReference) ∧
      flatten "Lists <see cref=\"T:My.List{System.Int32}\"/>.".toList = ["Lists Int32\x7d.".toList] := by
  have href : IsReference seeNames ["cref"] "<see cref=\"T:My.List{System.Int32}\"/>".toList listReference :=
    @IsReference.tag seeNames ["cref"] "see" "cref" [' '] [] [] [] listReference (by decide) (by decide) (by decide)
      (by decide) (by decide) (by decide) (by decide) (by decide)
  have hspace : IsName "My".toList := .append (s := "My".toList) (by decide) (by decide) (by decide) .nil
  have hlist : IsName "List{System.Int32}".toList :=
    .append (s := "List".toList) (by decide) (by decide) (by decide)
      (@IsName.arguments "System.Int32".toList [] (isBalanced_of_not_mem (by decide) (by decide)) .nil)
  have hname : IsCalled "cref" listReference "List{System.Int32}".toList :=
    .kind rfl (@IsSymbol.mk ["My".toList] _ [] (List.forall_mem_singleton.2 ⟨hspace, by decide⟩) hlist (by decide)
      (by decide) nofun)
  obtain ⟨htext, hkeeps, -, hbalanced, -⟩ := referenceName_iff href hname
  refine ⟨href, hname, fun h => ?_, fun h => ?_, ?_⟩
  · exact absurd (hkeeps.1 h) (by decide)
  · exact absurd ((hbalanced rfl).1 h) (by decide)
  · exact (htext "Lists ".toList ".".toList (.inr (by decide))).trans (by decide)

example : flatten "See <see href=\"https://example.com/a.html\"/>.".toList = ["See html.".toList] := by decide

end TypeBridge.Documentation
