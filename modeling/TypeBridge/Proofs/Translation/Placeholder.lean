import TypeBridge.Proofs.Text.Substitution
import TypeBridge.Translation.Template

/-!
# Placeholders

A template is filled by one replacement after the other, so a text that one of them puts in is searched by those
that come after it. What a template says is that all its placeholders are filled at once. For names without braces
a text falls into places to be filled and characters between them. When no placeholder is left in the text that is
filled at once, every replacement fills the places of its own name and nothing else: a placeholder that it found
anywhere else would stay to the end.

Results:
* `fillWith_eq_render`: what it means to fill all places at once.
* `replace_render`, `replaceAll_eq_render`: what one replacement does, and what all of them do.
* `settled_render_of_long`: no placeholder is left when what is put in is longer than all names.
-/
namespace TypeBridge

namespace Template

/-! ## Placeholders in a text -/

/-- What it means that a name has no braces. -/
def IsPlain (name : String) : Prop := '\x7b' ∉ name.toList ∧ '\x7d' ∉ name.toList

instance (name : String) : Decidable (IsPlain name) := inferInstanceAs (Decidable (_ ∧ _))

/-- A placeholder without the brace that opens it. -/
def placeholderEnd (name : String) : List Char := name.toList ++ ['\x7d']

theorem placeholder_eq (name : String) : placeholder name = '\x7b' :: placeholderEnd name := rfl

theorem IsPlain.not_mem_placeholderEnd {name : String} (h : IsPlain name) : '\x7b' ∉ placeholderEnd name := by
  simp [placeholderEnd, h.1]

theorem eq_of_append_close {x y r s : List Char} (hx : '\x7d' ∉ x) (hy : '\x7d' ∉ y)
    (h : x ++ '\x7d' :: r = y ++ '\x7d' :: s) : x = y := by
  induction x generalizing y with
  | nil =>
    cases y with
    | nil => rfl
    | cons d y =>
      cases h
      exact absurd List.mem_cons_self hy
  | cons c x ih =>
    cases y with
    | nil =>
      cases h
      exact absurd List.mem_cons_self hx
    | cons d y =>
      obtain ⟨rfl, htail⟩ := List.cons.inj h
      rw [ih (List.not_mem_of_not_mem_cons hx) (List.not_mem_of_not_mem_cons hy) htail]

/-- A text begins with one placeholder at most. -/
theorem eq_of_prefix_append {name other : String} (hname : IsPlain name) (hother : IsPlain other)
    {rest : List Char} (h : placeholder name <+: placeholder other ++ rest) : name = other := by
  obtain ⟨s, hs⟩ := h
  have htail : name.toList ++ '\x7d' :: s = other.toList ++ '\x7d' :: rest := by
    simpa [placeholder] using hs
  exact String.toList_inj.1 (eq_of_append_close hname.2 hother.2 htail)

/-- No placeholder begins where there is no brace that opens it. -/
theorem not_prefix_of_not_mem {name : String} {t rest : List Char} (hne : t ≠ []) (h : '\x7b' ∉ t) :
    ¬ placeholder name <+: t ++ rest := by
  obtain ⟨c, t, rfl⟩ := List.exists_cons_of_ne_nil hne
  rw [placeholder_eq, List.cons_append, List.cons_prefix_cons]
  rintro ⟨rfl, -⟩
  exact h List.mem_cons_self

theorem placeholder_infix_append {name : String} {text rest : List Char} (htext : '\x7b' ∉ text)
    (h : placeholder name <:+: text ++ rest) : placeholder name <:+: rest := by
  induction text with
  | nil => exact h
  | cons c text ih =>
    rcases List.infix_cons_iff.1 h with h | h
    · exact absurd h (@not_prefix_of_not_mem name (c :: text) rest (by simp) htext)
    · exact ih (List.not_mem_of_not_mem_cons htext) h

/-- The only placeholder that begins in another one is this one itself. -/
theorem not_prefix_of_suffix {name other : String} (hname : IsPlain name) (hother : IsPlain other)
    (hne : name ≠ other) {t rest : List Char} (ht : t ≠ []) (hsuffix : t <:+ placeholder other) :
    ¬ placeholder name <+: t ++ rest := by
  rw [placeholder_eq, List.suffix_cons_iff, ← placeholder_eq] at hsuffix
  rcases hsuffix with rfl | hsuffix
  · exact fun h => hne (eq_of_prefix_append hname hother h)
  · exact not_prefix_of_not_mem ht fun hmem => hother.not_mem_placeholderEnd (hsuffix.subset hmem)

/-! ## Pieces of a text -/

/-- A piece of a text: a character that stays, or a place to be filled. -/
inductive Piece where
  | char (c : Char)
  | hole (name : String)

/-- The text of pieces, with given texts in the places to be filled. -/
def render (values : String → List Char) : List Piece → List Char
  | [] => []
  | .char c :: pieces => c :: render values pieces
  | .hole name :: pieces => values name ++ render values pieces

/-- The pieces of a text in which the placeholders of some names are the places to be filled. -/
inductive Pieces (names : List String) : List Char → List Piece → Prop
  | nil : Pieces names [] []
  | char {c : Char} {s : List Char} {pieces : List Piece} :
    (∀ name ∈ names, ¬ placeholder name <+: c :: s) → Pieces names s pieces → Pieces names (c :: s) (.char c :: pieces)
  | hole {name : String} {s : List Char} {pieces : List Piece} :
    name ∈ names → Pieces names s pieces → Pieces names (placeholder name ++ s) (.hole name :: pieces)

theorem exists_pieces (names : List String) (s : List Char) : ∃ pieces, Pieces names s pieces := by
  induction hlength : s.length using Nat.strongRecOn generalizing s with
  | ind n ih =>
    by_cases hstart : ∃ name ∈ names, placeholder name <+: s
    · obtain ⟨name, hname, rest, rfl⟩ := hstart
      obtain ⟨pieces, hpieces⟩ := ih rest.length (by simp [← hlength, placeholder]; omega) rest rfl
      exact ⟨_, .hole hname hpieces⟩
    · cases s with
      | nil => exact ⟨_, .nil⟩
      | cons c s =>
        obtain ⟨pieces, hpieces⟩ := ih s.length (by simp [← hlength]) s rfl
        exact ⟨_, .char (fun name hname h => hstart ⟨name, hname, h⟩) hpieces⟩

section Pieces

variable {names : List String} {s : List Char} {pieces : List Piece}

theorem Pieces.render_placeholder (h : Pieces names s pieces) : render placeholder pieces = s := by
  induction h with
  | nil => rfl
  | char _ _ ih => rw [render, ih]
  | hole _ _ ih => rw [render, ih]

theorem Pieces.mem_names (h : Pieces names s pieces) {name : String} (hmem : .hole name ∈ pieces) : name ∈ names := by
  induction h with
  | nil => cases hmem
  | char _ _ ih => exact ih (by simpa using hmem)
  | hole hname _ ih =>
    rcases List.mem_cons.1 hmem with heq | hmem
    · cases heq
      exact hname
    · exact ih hmem

/-- The places to be filled are where the placeholders stand. -/
theorem Pieces.hole_mem_iff (h : Pieces names s pieces) (hplain : ∀ name ∈ names, IsPlain name) {name : String}
    (hname : name ∈ names) : .hole name ∈ pieces ↔ placeholder name <:+: s := by
  induction h with
  | nil => simp [placeholder]
  | @char c s pieces hnot _ ih =>
    rw [List.infix_cons_iff, or_iff_right (hnot name hname), ← ih]
    simp
  | @hole other s pieces hother _ ih =>
    rw [List.mem_cons, ih]
    constructor
    · rintro (heq | hoccurs)
      · cases heq
        exact (List.prefix_append _ _).isInfix
      · exact hoccurs.trans (List.suffix_append _ _).isInfix
    · intro hoccurs
      rw [placeholder_eq other, List.cons_append, List.infix_cons_iff, ← List.cons_append, ← placeholder_eq] at hoccurs
      rcases hoccurs with hbegins | hoccurs
      · rw [eq_of_prefix_append (hplain name hname) (hplain other hother) hbegins]
        exact .inl rfl
      · exact .inr (placeholder_infix_append (hplain other hother).not_mem_placeholderEnd hoccurs)

theorem render_congr {values values' : String → List Char} (h : ∀ name, .hole name ∈ pieces → values name = values' name) :
    render values pieces = render values' pieces := by
  induction pieces with
  | nil => rfl
  | cons piece pieces ih =>
    have hrest := ih fun name hmem => h name (List.mem_cons_of_mem _ hmem)
    cases piece with
    | char c => rw [render, render, hrest]
    | hole name => rw [render, render, hrest, h name List.mem_cons_self]

/-- Texts of the same length in the places to be filled can be told apart. -/
theorem eq_of_render_eq {values values' : String → List Char}
    (hlength : ∀ name, .hole name ∈ pieces → (values name).length = (values' name).length)
    (h : render values pieces = render values' pieces) {name : String} (hmem : .hole name ∈ pieces) :
    values name = values' name := by
  induction pieces with
  | nil => cases hmem
  | cons piece pieces ih =>
    have hrest := fun name hmem => hlength name (List.mem_cons_of_mem _ hmem)
    cases piece with
    | char c => exact ih hrest (List.cons.inj h).2 (by simpa using hmem)
    | hole other =>
      obtain ⟨hvalue, htail⟩ := List.append_inj h (hlength other List.mem_cons_self)
      rcases List.mem_cons.1 hmem with heq | hmem
      · cases heq
        exact hvalue
      · exact ih hrest htail hmem

end Pieces

/-! ## Filling all places at once -/

/-- Finds the placeholders of the names of some entries, and puts the text of the first entry for a name in. -/
def finder : List (String × String) → Text.Finder
  | [], _ => none
  | (name, text) :: entries, s => (Text.findPattern (placeholder name) text.toList s).or (finder entries s)

/-- A text with all placeholders of the names of some entries filled at once. -/
def fillWith (entries : List (String × String)) (s : List Char) : List Char := Text.substitute (finder entries) s

/-- The text of the first entry for a name, or its placeholder. -/
def valueOf (entries : List (String × String)) (name : String) : List Char :=
  ((entries.lookup name).map String.toList).getD (placeholder name)

/-- What it means that some names are those of entries. -/
def AreNames (names : List String) (entries : List (String × String)) : Prop :=
  ∀ name, name ∈ names ↔ name ∈ entries.map (·.1)

theorem finder_placeholder {entries : List (String × String)} (hplain : ∀ entry ∈ entries, IsPlain entry.1)
    {name : String} (hname : name ∈ entries.map (·.1)) (rest : List Char) :
    finder entries (placeholder name ++ rest) = some (valueOf entries name, rest) := by
  induction entries with
  | nil => cases hname
  | cons entry entries ih =>
    obtain ⟨hentry, hentries⟩ := List.forall_mem_cons.1 hplain
    obtain ⟨other, text⟩ := entry
    rw [finder]
    by_cases heq : name = other
    · subst heq
      rw [Text.findPattern_append, valueOf, List.lookup_cons_self]
      rfl
    · have hmem : name ∈ entries.map (·.1) := (List.mem_cons.1 hname).resolve_left heq
      have hnameplain : IsPlain name := by
        obtain ⟨named, hnamed, rfl⟩ := List.mem_map.1 hmem
        exact hentries named hnamed
      have hnot : ¬ placeholder other <+: placeholder name ++ rest := fun h =>
        heq (eq_of_prefix_append hentry hnameplain h).symm
      rw [Text.findPattern_eq_none hnot, Option.none_or, ih hentries hmem, valueOf, valueOf, List.lookup_cons,
        beq_false_of_ne heq]

theorem finder_eq_none {entries : List (String × String)} {s : List Char}
    (h : ∀ name ∈ entries.map (·.1), ¬ placeholder name <+: s) : finder entries s = none := by
  induction entries with
  | nil => rfl
  | cons entry entries ih =>
    rw [List.map_cons, List.forall_mem_cons] at h
    rw [finder, Text.findPattern_eq_none h.1, ih h.2, Option.none_or]

/-- All places are filled, each with what its name stands for. -/
theorem fillWith_eq_render {names : List String} {entries : List (String × String)} (hnames : AreNames names entries)
    (hplain : ∀ entry ∈ entries, IsPlain entry.1) {s : List Char} {pieces : List Piece} (h : Pieces names s pieces) :
    fillWith entries s = render (valueOf entries) pieces := by
  rw [fillWith]
  induction h with
  | nil => rfl
  | char hnot _ ih =>
    rw [Text.substitute_cons (finder_eq_none fun name hname => hnot name ((hnames name).2 hname)), ih, render]
  | @hole name s pieces hname _ ih =>
    rw [Text.substitute_of_find (by simp [placeholder]) (finder_placeholder hplain ((hnames name).1 hname) s), ih,
      render]

/-! ## One replacement after the other -/

/-- What it means that one way to fill places is another one with further places filled. -/
def FillsFurther (values values' : String → List Char) : Prop :=
  ∀ name, values name = placeholder name ∨ values' name = values name

theorem prefix_append_of {rest rest' : List Char}
    (h : ∀ part, '\x7b' ∉ part → part <+: rest → part <+: rest') {part text : List Char} (hpart : '\x7b' ∉ part)
    (hbegins : part <+: text ++ rest) : part <+: text ++ rest' := by
  induction text generalizing part with
  | nil => exact h part hpart hbegins
  | cons c text ih =>
    rcases List.prefix_cons_iff.1 hbegins with rfl | ⟨more, rfl, hmore⟩
    · exact List.nil_prefix
    · exact List.cons_prefix_cons.2 ⟨rfl, ih (List.not_mem_of_not_mem_cons hpart) hmore⟩

/-- A part without an opening brace at the beginning of a text stays there when further places are filled, since it
ends before the first of them. -/
theorem prefix_render {values values' : String → List Char} (h : FillsFurther values values') {part : List Char}
    {pieces : List Piece} (hpart : '\x7b' ∉ part) (hbegins : part <+: render values pieces) :
    part <+: render values' pieces := by
  induction pieces generalizing part with
  | nil => exact hbegins
  | cons piece pieces ih =>
    have hrest : ∀ part, '\x7b' ∉ part → part <+: render values pieces → part <+: render values' pieces :=
      fun part hpart hbegins => ih hpart hbegins
    cases piece with
    | char c => exact @prefix_append_of _ _ hrest _ [c] hpart hbegins
    | hole name =>
      rw [render] at hbegins ⊢
      rcases h name with hopen | hsame
      · rw [hopen, placeholder_eq, List.cons_append] at hbegins
        rcases List.prefix_cons_iff.1 hbegins with rfl | ⟨more, rfl, -⟩
        · exact List.nil_prefix
        · exact absurd List.mem_cons_self hpart
      · rw [hsame]
        exact prefix_append_of hrest hpart hbegins

/-- So a placeholder stays that does not begin with the first place to be filled. -/
theorem placeholder_prefix_render {values values' : String → List Char} (h : FillsFurther values values')
    {name : String} (hname : IsPlain name) {text : List Char} (hne : text ≠ []) {pieces : List Piece}
    (hbegins : placeholder name <+: text ++ render values pieces) :
    placeholder name <+: text ++ render values' pieces := by
  obtain ⟨c, text, rfl⟩ := List.exists_cons_of_ne_nil hne
  rw [placeholder_eq, List.cons_append, List.cons_prefix_cons] at hbegins ⊢
  obtain ⟨rfl, htail⟩ := hbegins
  exact ⟨rfl, prefix_append_of (fun _ hpart => prefix_render h hpart) hname.not_mem_placeholderEnd htail⟩

/-- What has been filled, and what never needs to be, stays as it is when the placeholder is not there in the end. -/
theorem replace_filled {name : String} (hname : IsPlain name) {values last : String → List Char}
    (h : FillsFurther values last) {filled text : List Char} {pieces : List Piece}
    (hlast : ¬ placeholder name <:+: filled ++ render last pieces) :
    Text.replace (placeholder name) text (filled ++ render values pieces) =
      filled ++ Text.replace (placeholder name) text (render values pieces) := by
  refine Text.replace_append fun t hne ⟨start, hstart⟩ hbegins => hlast ?_
  have hoccurs := (placeholder_prefix_render h hname hne hbegins).isInfix
  rw [← hstart, List.append_assoc]
  exact hoccurs.trans (List.suffix_append _ _).isInfix

/-- A replacement fills the places of its name, and nothing else, when its placeholder is not in the text in which all
places are filled in the end. -/
theorem replace_render {name : String} {text : List Char} {values next last : String → List Char}
    {pieces : List Piece} (hname : IsPlain name) (hplain : ∀ other, .hole other ∈ pieces → IsPlain other)
    (hnext : ∀ other, values other = placeholder other ∧
        next other = (if other = name then text else placeholder other) ∨
      last other = values other ∧ next other = values other)
    (hlast : ¬ placeholder name <:+: render last pieces) :
    Text.replace (placeholder name) text (render values pieces) = render next pieces := by
  have hfurther : FillsFurther values last := fun other => (hnext other).imp And.left And.left
  induction pieces with
  | nil => rfl
  | cons piece pieces ih =>
    have hrest := ih fun other hmem => hplain other (List.mem_cons_of_mem _ hmem)
    cases piece with
    | char c =>
      have hpieces := hrest fun h => hlast (h.trans (List.suffix_cons c _).isInfix)
      exact (@replace_filled _ hname _ _ hfurther [c] _ _ hlast).trans (congrArg (c :: ·) hpieces)
    | hole other =>
      rw [render] at hlast ⊢
      have hpieces := hrest fun h => hlast (h.trans (List.suffix_append _ _).isInfix)
      rcases hnext other with ⟨hopen, hfilled⟩ | ⟨hsame, hfilled⟩
      · by_cases heq : other = name
        · subst heq
          rw [hopen, Text.replace_pattern (by simp [placeholder]), hpieces, render, hfilled, if_pos rfl]
        · have hnone : ∀ t, t ≠ [] → t <:+ placeholder other → ¬ placeholder name <+: t ++ render values pieces :=
            fun t hne hsuffix =>
              not_prefix_of_suffix hname (hplain other List.mem_cons_self) (fun h => heq h.symm) hne hsuffix
          rw [hopen, Text.replace_append hnone, hpieces, render, hfilled, if_neg heq]
      · rw [hsame] at hlast
        rw [replace_filled hname hfurther hlast, hpieces, render, hfilled]

/-- The replacements of some entries, in order. -/
def replaceAll (entries : List (String × String)) (s : List Char) : List Char :=
  entries.foldl (fun s (name, text) => Text.replace (placeholder name) text.toList s) s

/-- The replacements of the entries after some that have been made: by induction on those still to be made. -/
theorem replaceAll_render {entries done : List (String × String)} {pieces : List Piece}
    (hentries : ∀ entry ∈ entries, IsPlain entry.1) (hplain : ∀ name, .hole name ∈ pieces → IsPlain name)
    (hsettled : ∀ entry ∈ entries, ¬ placeholder entry.1 <:+: render (valueOf (done ++ entries)) pieces) :
    replaceAll entries (render (valueOf done) pieces) = render (valueOf (done ++ entries)) pieces := by
  induction entries generalizing done with
  | nil => rw [List.append_nil]; rfl
  | cons entry entries ih =>
    obtain ⟨hentry, hothers⟩ := List.forall_mem_cons.1 hentries
    obtain ⟨hfirst, hrest⟩ := List.forall_mem_cons.1 hsettled
    obtain ⟨name, text⟩ := entry
    have hstep : Text.replace (placeholder name) text.toList (render (valueOf done) pieces) =
        render (valueOf (done ++ [(name, text)])) pieces := by
      refine replace_render hentry hplain (fun other => ?_) hfirst
      rw [valueOf, valueOf, valueOf, List.lookup_append, List.lookup_append]
      cases done.lookup other with
      | some found => exact .inr ⟨rfl, rfl⟩
      | none =>
        refine .inl ⟨rfl, ?_⟩
        by_cases heq : other = name
        · subst heq
          simp
        · simp [List.lookup_cons, heq, beq_false_of_ne heq]
    have hfold : replaceAll ((name, text) :: entries) (render (valueOf done) pieces) =
        replaceAll entries (Text.replace (placeholder name) text.toList (render (valueOf done) pieces)) := rfl
    rw [List.append_cons] at hrest ⊢
    rw [hfold, hstep, ih hothers hrest]

/-- Made one after the other, replacements fill all places as if it were at once when no placeholder is left then. -/
theorem replaceAll_eq_render {names : List String} {entries : List (String × String)}
    (hnames : AreNames names entries) (hplain : ∀ entry ∈ entries, IsPlain entry.1) {s : List Char}
    {pieces : List Piece} (h : Pieces names s pieces)
    (hsettled : ∀ name ∈ names, ¬ placeholder name <:+: render (valueOf entries) pieces) :
    replaceAll entries s = render (valueOf entries) pieces := by
  have hpieces : ∀ name, .hole name ∈ pieces → IsPlain name := by
    intro name hmem
    obtain ⟨entry, hentry, rfl⟩ := List.mem_map.1 ((hnames name).1 (h.mem_names hmem))
    exact hplain entry hentry
  have hrun := @replaceAll_render entries [] pieces hplain hpieces fun entry hentry =>
    hsettled entry.1 ((hnames entry.1).2 (List.mem_map_of_mem hentry))
  have hstart : render (valueOf []) pieces = s := h.render_placeholder
  rwa [hstart] at hrun

/-! ## Texts that are longer than names -/

/-- A part that ends with a closing brace and is shorter than what is put in does not reach beyond the first place
that is filled, and so stands in the text to be filled. -/
theorem prefix_of_prefix_render {names : List String} {s : List Char} {pieces : List Piece}
    (h : Pieces names s pieces) {values : String → List Char}
    (hvalues : ∀ name ∈ names, '\x7d' ∉ values name) {part : List Char}
    (hlength : ∀ name ∈ names, part.length < (values name).length)
    (hbegins : part ++ ['\x7d'] <+: render values pieces) : part ++ ['\x7d'] <+: s := by
  induction h generalizing part with
  | nil => exact hbegins
  | char _ _ ih =>
    cases part with
    | nil => exact List.cons_prefix_cons.2 ⟨(List.cons_prefix_cons.1 hbegins).1, List.nil_prefix⟩
    | cons d part =>
      obtain ⟨rfl, htail⟩ := List.cons_prefix_cons.1 hbegins
      exact List.cons_prefix_cons.2 ⟨rfl, ih (fun name hname => Nat.lt_of_succ_lt (hlength name hname)) htail⟩
  | @hole name s pieces hname _ _ =>
    have hshort : (part ++ ['\x7d']).length ≤ (values name).length := by
      rw [List.length_append, List.length_singleton]
      exact hlength name hname
    have hin := List.prefix_of_prefix_length_le hbegins (List.prefix_append _ _) hshort
    exact absurd (hin.subset (by simp)) (hvalues name hname)

/-- No placeholder is left when what is put in has no braces and is longer than all names. -/
theorem settled_render_of_long {names : List String} {s : List Char} {pieces : List Piece}
    (h : Pieces names s pieces) {values : String → List Char}
    (hvalues : ∀ name ∈ names, '\x7b' ∉ values name ∧ '\x7d' ∉ values name)
    (hlength : ∀ name ∈ names, ∀ other ∈ names, other.toList.length < (values name).length) :
    ∀ name ∈ names, ¬ placeholder name <:+: render values pieces := by
  intro name hname
  induction h with
  | nil => simp [render, placeholder]
  | @char c s pieces hnot hpieces ih =>
    rw [render, List.infix_cons_iff, not_or]
    refine ⟨fun hbegins => hnot name hname ?_, ih⟩
    rw [placeholder_eq, List.cons_prefix_cons] at hbegins ⊢
    exact ⟨hbegins.1, prefix_of_prefix_render hpieces (fun other hother => (hvalues other hother).2)
      (fun other hother => hlength other hother name hname) hbegins.2⟩
  | @hole other s pieces hother _ ih =>
    exact fun hoccurs => ih (placeholder_infix_append (hvalues other hother).1 hoccurs)

end Template

end TypeBridge
