import TypeBridge.Proofs.Text.Trim
import TypeBridge.TypeMap
import Mathlib.Data.List.Forall2

/-!
# The lines of type maps

What the lines of a type map say, and what follows of it for the tables.

Results:
* `splitKey?_of_isTypeName`, `splitKey?_bracketed`, `splitKey?_eq_some`: the two forms of a key.
* `addLine_cases`: what can become of a line.
* `addLine_eq_ok`: which lines are accepted, and what they add.
* `addLines_eq_ok`: the same for all lines of a text.
* `scalars_addAll`, `templates_addAll`: the tables are those of the entries of either kind, in order.
* `get?_scalars_addAll`, `get?_templates_addAll`: of several entries for a name the last one counts.
-/
namespace TypeBridge.TypeMap

/-! ## What lines say -/

/-- An entry of a type map. -/
inductive Entry where
  | scalar (name value : String)
  | template (name : String) (template : Template)

/-- A type map with one more entry. -/
def add (map : TypeMap) : Entry → TypeMap
  | .scalar name value => { map with scalars := map.scalars.insert name value }
  | .template name template => { map with templates := map.templates.insert name template }

/-- A type map with what a line adds, which may be nothing. -/
def addOption (map : TypeMap) (entry : Option Entry) : TypeMap := entry.elim map map.add

/-- The names that an entry can be for. -/
def IsTypeName (name : List Char) : Prop :=
  ∃ c r, name = c :: r ∧ isNameStart c = true ∧ ∀ d ∈ r, isNameChar d = true

/-- The parameters between the angle brackets of a key. -/
def parameters (inner : List Char) : List (List Char) := (Text.splitOn (· == ',') inner).map Text.trim

/-- What stands in front of the first colon of a line and behind it. -/
def Assigns (line key value : List Char) : Prop :=
  ∃ before after, Text.trim line = before ++ ':' :: after ∧ ':' ∉ before ∧ Text.trim before = key ∧
    Text.trim after = value ∧ value ≠ []

/-- What a line says: nothing when it is blank or a comment, or else an entry. -/
inductive Describes (line : List Char) : Option Entry → Prop
  | blank : Text.trim line = [] → Describes line none
  | comment {r : List Char} : Text.trim line = '#' :: r → Describes line none
  | scalar {name value : List Char} :
    Assigns line name value → IsTypeName name →
    Describes line (some (.scalar (.ofList name) (.ofList value)))
  | template {name blanks inner value : List Char} :
    Assigns line (name ++ (blanks ++ '<' :: (inner ++ ['>']))) value → IsTypeName name →
    (∀ c ∈ blanks, Text.isBlank c = true) → (∀ c ∈ inner, c ≠ '<' ∧ c ≠ '>') →
    (∀ p ∈ parameters inner, p ≠ []) →
    Describes line (some (.template (.ofList name) ⟨(parameters inner).map .ofList, .ofList value⟩))

/-! ## Keys -/

theorem bracketed?_eq_some {s inner : List Char} :
    bracketed? s = some inner ↔ s = '<' :: (inner ++ ['>']) ∧ ∀ c ∈ inner, c ≠ '<' ∧ c ≠ '>' := by
  constructor
  · intro h
    unfold bracketed? at h
    split at h
    · rename_i r
      split at h
      · rename_i reversed hr
        split_ifs at h with hany
        cases h
        have hr' : r = reversed.reverse ++ ['>'] := by
          rw [← List.reverse_reverse r, hr, List.reverse_cons]
        refine ⟨by rw [hr'], fun c hc => ?_⟩
        rw [← not_or]
        exact fun hbad => hany (List.any_eq_true.2 ⟨c, by simpa using hc, by simpa using hbad⟩)
      · cases h
    · cases h
  · rintro ⟨rfl, hinner⟩
    have hany : (inner.reverse.any fun c => c == '<' || c == '>') = false := by
      simpa using hinner
    simp only [bracketed?, List.reverse_append, List.reverse_singleton, List.singleton_append, hany]
    simp

theorem not_isBlank_of_isNameChar {c : Char} (h : isNameChar c = true) : Text.isBlank c = false := by
  simp only [isNameChar, Bool.or_eq_true, beq_iff_eq] at h
  rcases h with (h | rfl) | rfl
  · exact Text.not_isBlank_of_isAlphanum h
  · rfl
  · rfl

theorem span_of_stops {p : Char → Bool} {a b : List Char} (ha : ∀ c ∈ a, p c = true)
    (hb : ∀ c ∈ b.head?, p c = false) : (a ++ b).takeWhile p = a ∧ (a ++ b).dropWhile p = b := by
  rw [List.takeWhile_append_of_pos ha, List.dropWhile_append_of_pos ha]
  cases b with
  | nil => simp
  | cons c b =>
    have hc := hb c rfl
    simp [hc]

/-- How a key is divided into a name, blanks, and what is not blank. -/
theorem splitKey?_eq {name blanks rest : List Char} (hname : IsTypeName name)
    (hblanks : ∀ c ∈ blanks, Text.isBlank c = true)
    (hrest : ∀ c ∈ rest.head?, Text.isBlank c = false ∧ isNameChar c = false) :
    splitKey? (name ++ (blanks ++ rest)) =
      if rest = [] then some (name, none) else (bracketed? rest).map fun inner => (name, some inner) := by
  obtain ⟨c, r, rfl, hc, hr⟩ := hname
  have hstop : ∀ d ∈ (blanks ++ rest).head?, isNameChar d = false := by
    cases blanks with
    | nil => exact fun d hd => (hrest d hd).2
    | cons b blanks =>
      intro d hd
      obtain rfl : b = d := by simpa using hd
      by_contra hchar
      have hblank := hblanks b (by simp)
      rw [not_isBlank_of_isNameChar (by simpa using hchar)] at hblank
      cases hblank
  obtain ⟨htake, hdrop⟩ := span_of_stops hr hstop
  obtain ⟨-, htrim⟩ := span_of_stops hblanks fun d hd => (hrest d hd).1
  rw [List.cons_append, splitKey?, if_pos hc, htake, hdrop, Text.trimStart, htrim]
  cases rest with
  | nil => rfl
  | cons d rest => rfl

theorem splitKey?_of_isTypeName {key : List Char} (h : IsTypeName key) : splitKey? key = some (key, none) := by
  have hkey := @splitKey?_eq key [] [] h (by simp) (by simp)
  rwa [List.append_nil, List.append_nil, if_pos rfl] at hkey

theorem splitKey?_bracketed {name blanks inner : List Char} (hname : IsTypeName name)
    (hblanks : ∀ c ∈ blanks, Text.isBlank c = true) (hangles : ∀ c ∈ inner, c ≠ '<' ∧ c ≠ '>') :
    splitKey? (name ++ (blanks ++ '<' :: (inner ++ ['>']))) = some (name, some inner) := by
  have hopen : ∀ c ∈ ('<' :: (inner ++ ['>'])).head?, Text.isBlank c = false ∧ isNameChar c = false := by
    rintro c ⟨⟩
    decide
  rw [splitKey?_eq hname hblanks hopen, if_neg (List.cons_ne_nil _ _), bracketed?_eq_some.2 ⟨rfl, hangles⟩,
    Option.map_some]

theorem splitKey?_eq_some {key name : List Char} {inner : Option (List Char)}
    (h : splitKey? key = some (name, inner)) :
    IsTypeName name ∧ ∃ blanks rest, key = name ++ (blanks ++ rest) ∧
      (∀ c ∈ blanks, Text.isBlank c = true) ∧
      ((rest = [] ∧ inner = none) ∨ ∃ text, bracketed? rest = some text ∧ inner = some text) := by
  unfold splitKey? at h
  split at h
  · cases h
  · rename_i c r
    split_ifs at h with hc
    have hblanks : ∀ d ∈ (r.dropWhile isNameChar).takeWhile Text.isBlank, Text.isBlank d = true :=
      List.all_eq_true.1 List.all_takeWhile
    have hkey : c :: r = (c :: r.takeWhile isNameChar) ++
        ((r.dropWhile isNameChar).takeWhile Text.isBlank ++ Text.trimStart (r.dropWhile isNameChar)) := by
      rw [Text.trimStart, List.takeWhile_append_dropWhile, List.cons_append,
        List.takeWhile_append_dropWhile]
    have hname : IsTypeName (c :: r.takeWhile isNameChar) :=
      ⟨c, _, rfl, hc, List.all_eq_true.1 List.all_takeWhile⟩
    simp only at h
    split at h
    · rename_i hrest
      cases h
      exact ⟨hname, _, _, hkey, hblanks, .inl ⟨hrest, rfl⟩⟩
    · obtain ⟨text, htext, heq⟩ := Option.map_eq_some_iff.1 h
      cases heq
      exact ⟨hname, _, _, hkey, hblanks, .inr ⟨text, htext, rfl⟩⟩

/-! ## Lines -/

/-- What is left after trimming does not end with blanks. -/
theorem eq_nil_of_trim_eq_append {s name blanks : List Char} (h : Text.trim s = name ++ blanks)
    (hblanks : ∀ c ∈ blanks, Text.isBlank c = true) : blanks = [] := by
  by_contra hne
  have hlast := (Text.isTrimmed_trimEdges Text.isBlank s).last (blanks.getLast hne) (by
    rw [← Text.trim_eq_trimEdges, h, List.getLast?_append_of_ne_nil _ hne, List.getLast?_eq_some_getLast hne]
    rfl)
  rw [hblanks _ (List.getLast_mem hne)] at hlast
  cases hlast

theorem Assigns.unique {line key key' value value' : List Char} (h : Assigns line key value)
    (h' : Assigns line key' value') : key = key' ∧ value = value' := by
  obtain ⟨before, after, hline, hbefore, rfl, rfl, -⟩ := h
  obtain ⟨before', after', hline', hbefore', rfl, rfl, -⟩ := h'
  have hsplit := Text.splitFirst_eq before after hbefore
  rw [← hline, hline', Text.splitFirst_eq before' after' hbefore'] at hsplit
  cases hsplit
  exact ⟨rfl, rfl⟩

theorem parameters_any_isEmpty {inner : List Char} :
    (parameters inner).any (·.isEmpty) = false ↔ ∀ p ∈ parameters inner, p ≠ [] := by
  simp [List.isEmpty_iff]

/-- The entry of a line that is neither blank nor a comment. -/
theorem addEntry_eq_ok {map map' : TypeMap} {line key value : List Char} (h : Assigns line key value) :
    map.addEntry key value = .ok map' ↔
      ∃ entry, Describes line (some entry) ∧ map' = map.add entry := by
  constructor
  · intro hok
    unfold addEntry at hok
    split at hok
    · cases hok
    · rename_i name hkey
      cases hok
      obtain ⟨hname, blanks, rest, rfl, hblanks, ⟨rfl, -⟩ | ⟨_, _, hbad⟩⟩ := splitKey?_eq_some hkey
      · obtain ⟨before, _, _, _, htrim, _⟩ := id h
        rw [List.append_nil] at htrim h
        rw [eq_nil_of_trim_eq_append htrim hblanks, List.append_nil] at h
        exact ⟨_, .scalar h hname, rfl⟩
      · cases hbad
    · rename_i name inner hkey
      obtain ⟨hname, blanks, rest, rfl, hblanks, ⟨-, hbad⟩ | ⟨_, hbracketed, hinner⟩⟩ := splitKey?_eq_some hkey
      · cases hbad
      · cases hinner
        obtain ⟨rfl, hangles⟩ := bracketed?_eq_some.1 hbracketed
        simp only at hok
        rw [← parameters] at hok
        split_ifs at hok with hany
        cases hok
        have hparameters := parameters_any_isEmpty.1 (Bool.eq_false_iff.2 hany)
        exact ⟨_, .template h hname hblanks hangles hparameters, rfl⟩
  · rintro ⟨entry, hentry, rfl⟩
    cases hentry with
    | @scalar name _ hline hname =>
      obtain ⟨rfl, rfl⟩ := h.unique hline
      rw [addEntry, splitKey?_of_isTypeName hname]
      rfl
    | @template name blanks inner _ hline hname hblanks hangles hparameters =>
      obtain ⟨rfl, rfl⟩ := h.unique hline
      rw [addEntry, splitKey?_bracketed hname hblanks hangles]
      simp only
      rw [← parameters, parameters_any_isEmpty.2 hparameters]
      rfl

theorem trim_cons_of_not_isBlank {c : Char} (h : Text.isBlank c = false) (s : List Char) :
    ∃ r, Text.trim (c :: s) = c :: r := by
  rw [Text.trim, Text.trimStart, List.dropWhile_cons_of_neg (by simp [h]), Text.trimEnd_cons_of_not_isBlank h]
  exact ⟨Text.trimEnd s, rfl⟩

/-- A comment has no entry. -/
theorem not_describes_comment {line r : List Char} {entry : Entry} (h : Text.trim line = '#' :: r) :
    ¬ Describes line (some entry) := by
  have hkey : ∀ key value, Assigns line key value → ∃ rest, key = '#' :: rest := by
    rintro key value ⟨before, after, hline, -, rfl, -, -⟩
    cases before with
    | nil => cases h.symm.trans hline
    | cons c before =>
      cases h.symm.trans hline
      exact trim_cons_of_not_isBlank (by decide) before
  have hname : ∀ name rest r, name ++ rest = '#' :: r → ¬ IsTypeName name := by
    rintro _ rest r heq ⟨c, s, rfl, hc, -⟩
    cases heq
    cases hc
  intro hentry
  cases hentry with
  | @scalar name value hline hn =>
    obtain ⟨rest, heq⟩ := hkey _ _ hline
    exact hname name [] rest (by simpa using heq) hn
  | template hline hn _ _ _ =>
    obtain ⟨rest, heq⟩ := hkey _ _ hline
    exact hname _ _ rest heq hn

theorem assigns_of_describes {line : List Char} {entry : Entry} (h : Describes line (some entry)) :
    ∃ key value, Assigns line key value := by
  cases h with
  | scalar hline _ => exact ⟨_, _, hline⟩
  | template hline _ _ _ _ => exact ⟨_, _, hline⟩

/-- A blank line or a comment has no entry. -/
theorem not_describes_some {line : List Char} (h : Describes line none) (entry : Entry) :
    ¬ Describes line (some entry) := by
  intro hentry
  cases h with
  | blank hblank =>
    obtain ⟨key, value, before, after, hline, -⟩ := assigns_of_describes hentry
    simp [hblank] at hline
  | comment hcomment => exact not_describes_comment hcomment hentry

/-- A line says nothing, or has a key with a value, or is refused because it has none. -/
theorem addLine_cases (map : TypeMap) (line : List Char) :
    (Describes line none ∧ map.addLine line = .ok map) ∨
      (¬ Describes line none ∧ ∃ key value, Assigns line key value ∧ map.addLine line = map.addEntry key value) ∨
      (¬ Describes line none ∧ (∀ key value, ¬ Assigns line key value) ∧ map.addLine line = .error .noEntry) := by
  unfold addLine
  split
  · exact .inl ⟨.blank ‹_›, rfl⟩
  · exact .inl ⟨.comment ‹_›, rfl⟩
  · rename_i hblank hcomment
    have hnone : ¬ Describes line none := by
      intro h
      cases h with
      | blank h => exact hblank h
      | comment h => exact hcomment _ h
    split
    · rename_i before after hsplit
      obtain ⟨hline, hbefore⟩ := Text.splitFirst_eq_some hsplit
      split
      · rename_i hempty
        refine .inr (.inr ⟨hnone, ?_, rfl⟩)
        rintro key value ⟨before', after', hline', hbefore', -, rfl, hne⟩
        rw [hline', Text.splitFirst_eq before' after' hbefore'] at hsplit
        cases hsplit
        exact hne hempty
      · rename_i hvalue
        exact .inr (.inl ⟨hnone, _, _, ⟨before, after, hline, hbefore, rfl, rfl, hvalue⟩, rfl⟩)
    · rename_i before hsplit
      refine .inr (.inr ⟨hnone, ?_, rfl⟩)
      rintro key value ⟨before', after', hline', hbefore', -⟩
      rw [hline', Text.splitFirst_eq before' after' hbefore'] at hsplit
      cases hsplit

/-- A line is accepted when it says something, and then it adds what it says. -/
theorem addLine_eq_ok {map map' : TypeMap} {line : List Char} :
    map.addLine line = .ok map' ↔ ∃ entry, Describes line entry ∧ map' = map.addOption entry := by
  rcases addLine_cases map line with ⟨hnone, heq⟩ | ⟨hnone, key, value, hassigns, heq⟩ | ⟨hnone, hno, heq⟩
  · rw [heq]
    constructor
    · intro hok
      cases hok
      exact ⟨none, hnone, rfl⟩
    · rintro ⟨_ | entry, hentry, rfl⟩
      · rfl
      · exact absurd hentry (not_describes_some hnone entry)
  · rw [heq, addEntry_eq_ok hassigns]
    constructor
    · rintro ⟨entry, hentry, rfl⟩
      exact ⟨some entry, hentry, rfl⟩
    · rintro ⟨_ | entry, hentry, rfl⟩
      · exact absurd hentry hnone
      · exact ⟨entry, hentry, rfl⟩
  · rw [heq]
    refine iff_of_false nofun ?_
    rintro ⟨_ | entry, hentry, -⟩
    · exact hnone hentry
    · obtain ⟨key, value, hassigns⟩ := assigns_of_describes hentry
      exact hno key value hassigns

/-! ## All lines of a text -/

/-- A type map with what several lines add, one after the other. -/
def addAll (map : TypeMap) (entries : List (Option Entry)) : TypeMap := entries.foldl addOption map

/-- A text is accepted when each of its lines says something, and then it makes the type map of what they
say. -/
theorem addLines_eq_ok {map map' : TypeMap} {number : Nat} {lines : List (List Char)} :
    map.addLines number lines = .ok map' ↔
      ∃ entries, List.Forall₂ Describes lines entries ∧ map' = map.addAll entries := by
  induction lines generalizing map number with
  | nil =>
    rw [addLines]
    constructor
    · intro hok
      cases hok
      exact ⟨[], .nil, rfl⟩
    · rintro ⟨entries, hentries, rfl⟩
      cases hentries
      rfl
  | cons line lines ih =>
    rw [addLines]
    constructor
    · intro hok
      cases hline : map.addLine line with
      | error fault =>
        rw [hline] at hok
        cases hok
      | ok next =>
        rw [hline] at hok
        obtain ⟨entry, hentry, rfl⟩ := addLine_eq_ok.1 hline
        obtain ⟨entries, hentries, rfl⟩ := ih.1 hok
        exact ⟨entry :: entries, .cons hentry hentries, rfl⟩
    · rintro ⟨entries, hentries, rfl⟩
      cases hentries with
      | @cons _ entry _ entries hentry hentries =>
        rw [addLine_eq_ok.2 ⟨entry, hentry, rfl⟩]
        exact ih.2 ⟨entries, hentries, rfl⟩

/-! ## The tables -/

/-- The name and the text of an entry for a name without parameters. -/
def Entry.scalar? : Entry → Option (String × String)
  | .scalar name value => some (name, value)
  | .template _ _ => none

/-- The name and the template of an entry for a name with parameters. -/
def Entry.template? : Entry → Option (String × Template)
  | .scalar _ _ => none
  | .template name filled => some (name, filled)

theorem scalars_addAll (map : TypeMap) (entries : List (Option Entry)) :
    (map.addAll entries).scalars = map.scalars.update (entries.filterMap (·.bind Entry.scalar?)) := by
  induction entries generalizing map with
  | nil => rfl
  | cons entry entries ih =>
    rw [addAll, List.foldl_cons, ← addAll, ih]
    match entry with
    | none => rfl
    | some (.scalar name value) => rfl
    | some (.template name template) => rfl

theorem templates_addAll (map : TypeMap) (entries : List (Option Entry)) :
    (map.addAll entries).templates = map.templates.update (entries.filterMap (·.bind Entry.template?)) := by
  induction entries generalizing map with
  | nil => rfl
  | cons entry entries ih =>
    rw [addAll, List.foldl_cons, ← addAll, ih]
    match entry with
    | none => rfl
    | some (.scalar name value) => rfl
    | some (.template name template) => rfl

theorem nodup_names_scalars_addAll (entries : List (Option Entry)) :
    (addAll {} entries).scalars.names.Nodup := by
  rw [scalars_addAll]
  exact @Table.nodup_names_update _ [] List.nodup_nil _

/-- The last entry for a name without parameters counts. -/
theorem get?_scalars_addAll (map : TypeMap) {name value : String} (before : List (Option Entry))
    {after : List (Option Entry)} (h : ∀ value, some (.scalar name value) ∉ after) :
    (map.addAll (before ++ some (.scalar name value) :: after)).scalars.get? name = some value := by
  simp only [scalars_addAll, List.filterMap_append, List.filterMap_cons, Option.bind_some, Entry.scalar?]
  refine Table.get?_update_last _ _ fun hmem => ?_
  obtain ⟨⟨other, value⟩, hpair, rfl⟩ := List.mem_map.1 hmem
  obtain ⟨entry, hentry, heq⟩ := List.mem_filterMap.1 hpair
  match entry with
  | none => cases heq
  | some (.template _ _) => cases heq
  | some (.scalar _ _) =>
    cases heq
    exact h _ hentry

/-- The last entry for a name with parameters counts. -/
theorem get?_templates_addAll (map : TypeMap) {name : String} {template : Template}
    (before : List (Option Entry)) {after : List (Option Entry)}
    (h : ∀ template, some (.template name template) ∉ after) :
    (map.addAll (before ++ some (.template name template) :: after)).templates.get? name =
      some template := by
  simp only [templates_addAll, List.filterMap_append, List.filterMap_cons, Option.bind_some, Entry.template?]
  refine Table.get?_update_last _ _ fun hmem => ?_
  obtain ⟨⟨other, template⟩, hpair, rfl⟩ := List.mem_map.1 hmem
  obtain ⟨entry, hentry, heq⟩ := List.mem_filterMap.1 hpair
  match entry with
  | none => cases heq
  | some (.scalar _ _) => cases heq
  | some (.template _ _) =>
    cases heq
    exact h _ hentry

end TypeBridge.TypeMap
