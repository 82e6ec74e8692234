import TypeBridge.Proofs.TypeMap.Effect
import TypeBridge.Text.Numeral
import TypeBridge.Text.Word

/-!
# The format of type maps

Which files are type maps, and what their tables are. A file is one when each of its lines says something. Then the
tables have the last entry for each name, and otherwise the first line that says nothing is told by its number, with
what is wrong with it. The colon that ends a name is the first one of its line, and names are made of the letters of
ASCII, so some lines that look like entries are none.

Results:
* `isGenericKey_of_splitKey?`, `illFormed_of_addLine`: what is wrong with a line that is not accepted.
* `addLines_eq_error`: the line of which this is told.
* `get?_update_entries`: the entries in a table.
* `ofFile_exact`: which files are accepted, and what follows.
-/
namespace TypeBridge.TypeMap

/-! ## Lines that are not accepted -/

/-- What it means that a key is that of a generic type: a name, and parameters between angle brackets. -/
def IsGenericKey (key inner : List Char) : Prop :=
  ∃ name blanks, key = name ++ (blanks ++ '<' :: (inner ++ ['>'])) ∧ IsTypeName name ∧
    (∀ c ∈ blanks, Text.isBlank c = true) ∧ ∀ c ∈ inner, c ≠ '<' ∧ c ≠ '>'

/-- What is wrong with a line that is neither blank nor a comment. -/
inductive IllFormed (line : List Char) : EntryFault → Prop
  /-- There is no colon with a text after it. -/
  | noEntry : (∀ key value, ¬ Assigns line key value) → IllFormed line .noEntry
  /-- What stands before the colon is no name, with or without parameters. -/
  | badName {key value : List Char} : Assigns line key value → ¬ IsTypeName key →
      (∀ inner, ¬ IsGenericKey key inner) → IllFormed line (.badName (.ofList key))
  /-- A parameter is blank. -/
  | emptyParameter {key inner value : List Char} : Assigns line key value → IsGenericKey key inner →
      [] ∈ parameters inner → IllFormed line (.emptyParameter (.ofList key))

theorem exists_splitKey?_of_isGenericKey {key inner : List Char} (h : IsGenericKey key inner) :
    ∃ name, splitKey? key = some (name, some inner) := by
  obtain ⟨name, blanks, rfl, hname, hblanks, hangles⟩ := h
  exact ⟨name, splitKey?_bracketed hname hblanks hangles⟩

theorem isGenericKey_of_splitKey? {key name inner : List Char} (h : splitKey? key = some (name, some inner)) :
    IsGenericKey key inner := by
  obtain ⟨hname, blanks, rest, rfl, hblanks, ⟨-, hbad⟩ | ⟨text, hbracketed, heq⟩⟩ := splitKey?_eq_some h
  · cases hbad
  · cases heq
    obtain ⟨rfl, hangles⟩ := bracketed?_eq_some.1 hbracketed
    exact ⟨name, blanks, rfl, hname, hblanks, hangles⟩

theorem illFormed_of_addEntry {map : TypeMap} {line key value : List Char} {fault : EntryFault}
    (hline : Assigns line key value) (h : map.addEntry key value = .error fault) : IllFormed line fault := by
  unfold addEntry at h
  split at h
  · rename_i hkey
    cases h
    refine .badName hline (fun hname => ?_) fun inner hgeneric => ?_
    · cases hkey.symm.trans (splitKey?_of_isTypeName hname)
    · obtain ⟨name, hname⟩ := exists_splitKey?_of_isGenericKey hgeneric
      cases hkey.symm.trans hname
  · cases h
  · rename_i name inner hkey
    simp only at h
    split_ifs at h with hany
    cases h
    obtain ⟨parameter, hmem, hempty⟩ := List.any_eq_true.1 hany
    exact .emptyParameter hline (isGenericKey_of_splitKey? hkey) (List.isEmpty_iff.1 hempty ▸ hmem)

/-- Of a line that is not accepted it is told what is wrong with it. -/
theorem illFormed_of_addLine {map : TypeMap} {line : List Char} {fault : EntryFault}
    (h : map.addLine line = .error fault) : IllFormed line fault := by
  rcases addLine_cases map line with ⟨-, heq⟩ | ⟨-, key, value, hassigns, heq⟩ | ⟨-, hno, heq⟩
  · cases heq.symm.trans h
  · exact illFormed_of_addEntry hassigns (heq.symm.trans h)
  · cases heq.symm.trans h
    exact .noEntry hno

/-- What is told of a text is the first of its lines that is not accepted, by its number. -/
theorem addLines_eq_error {map : TypeMap} {number : Nat} {lines : List (List Char)} {fault : Fault}
    (h : map.addLines number lines = .error fault) : ∃ before line after entryFault,
      lines = before ++ line :: after ∧ (∀ l ∈ before, ∃ entry, Describes l entry) ∧
      (∀ entry, ¬ Describes line entry) ∧ IllFormed line entryFault ∧
      fault = .entry (number + before.length) entryFault := by
  induction lines generalizing map number with
  | nil => cases h
  | cons line lines ih =>
    rw [addLines] at h
    cases hline : map.addLine line with
    | error entryFault =>
      rw [hline] at h
      cases h
      refine ⟨[], line, lines, entryFault, rfl, List.forall_mem_nil _, fun entry hentry => ?_,
        illFormed_of_addLine hline, rfl⟩
      cases hline.symm.trans (addLine_eq_ok.2 ⟨entry, hentry, rfl⟩)
    | ok next =>
      rw [hline] at h
      obtain ⟨entry, hentry, -⟩ := addLine_eq_ok.1 hline
      obtain ⟨before, bad, after, entryFault, rfl, hbefore, hbad, hfault, rfl⟩ := ih h
      refine ⟨line :: before, bad, after, entryFault, rfl, ?_, hbad, hfault, ?_⟩
      · exact List.forall_mem_cons.2 ⟨⟨entry, hentry⟩, hbefore⟩
      · rw [List.length_cons, Nat.add_assoc, Nat.add_comm 1]

/-! ## The entries in a table -/

section Last

variable {α : Type} {select : Entry → Option (String × α)} {name : String} {value : α}

/-- Whether a line has an entry of some kind for a name. -/
def EntryFor (select : Entry → Option (String × α)) (name : String) (line : List Char) (value : α) : Prop :=
  ∃ entry, Describes line (some entry) ∧ select entry = some (name, value)

/-- Whether a value is that of the last one of the entries of some kind for a name. -/
def LastEntryFor (select : Entry → Option (String × α)) (name : String) (lines : List (List Char)) (value : α) :
    Prop :=
  ∃ before line after, lines = before ++ line :: after ∧ EntryFor select name line value ∧
    ∀ l ∈ after, ∀ other, ¬ EntryFor select name l other

theorem lastEntryFor_cons {line : List Char} {lines : List (List Char)} :
    LastEntryFor select name (line :: lines) value ↔ LastEntryFor select name lines value ∨
      (EntryFor select name line value ∧ ∀ l ∈ lines, ∀ other, ¬ EntryFor select name l other) := by
  constructor
  · rintro ⟨before, last, after, heq, hlast, hafter⟩
    cases before with
    | nil =>
      obtain ⟨rfl, rfl⟩ := List.cons.inj heq
      exact .inr ⟨hlast, hafter⟩
    | cons first before =>
      obtain ⟨rfl, rfl⟩ := List.cons.inj heq
      exact .inl ⟨before, last, after, rfl, hlast, hafter⟩
  · rintro (⟨before, last, after, rfl, hlast, hafter⟩ | ⟨hline, hlines⟩)
    · exact ⟨line :: before, last, after, rfl, hlast, hafter⟩
    · exact ⟨[], line, lines, rfl, hline, hlines⟩

theorem entryFor_iff {line : List Char} {entry : Option Entry} (h : Describes line entry) :
    EntryFor select name line value ↔ entry.bind select = some (name, value) := by
  rw [Option.bind_eq_some_iff]
  constructor
  · rintro ⟨other, hother, hselect⟩
    exact ⟨other, h.unique hother, hselect⟩
  · rintro ⟨other, rfl, hselect⟩
    exact ⟨other, h, hselect⟩

/-- What is found for a name after entries have been made is the last one of them, or what was there before them. -/
theorem get?_update_entries {lines : List (List Char)} {entries : List (Option Entry)}
    (h : List.Forall₂ Describes lines entries) (table : Table α) :
    (table.update (entries.filterMap (·.bind select))).get? name = some value ↔
      LastEntryFor select name lines value ∨
        ((∀ l ∈ lines, ∀ other, ¬ EntryFor select name l other) ∧ table.get? name = some value) := by
  induction h generalizing table with
  | nil => simp [Table.update, LastEntryFor]
  | @cons line entry lines entries hline _ ih =>
    rw [lastEntryFor_cons, List.forall_mem_cons]
    simp only [entryFor_iff hline]
    cases hselect : entry.bind select with
    | none =>
      simp only [List.filterMap_cons, hselect]
      rw [ih]
      simp
    | some pair =>
      obtain ⟨known, old⟩ := pair
      simp only [List.filterMap_cons, hselect]
      rw [Table.update, List.foldl_cons, ← Table.update, ih, Table.get?_insert]
      by_cases hname : name = known
      · subst hname
        simp [and_comm]
      · simp [hname, Ne.symm hname]

end Last

variable {bytes : List UInt8} {s : List Char}

theorem ofText_cases (s : List Char) :
    (∃ entries, List.Forall₂ Describes (Text.lines s) entries ∧ ofText s = .ok (addAll {} entries)) ∨
      ∃ before line after entryFault, Text.lines s = before ++ line :: after ∧
        (∀ l ∈ before, ∃ entry, Describes l entry) ∧ (∀ entry, ¬ Describes line entry) ∧ IllFormed line entryFault ∧
        ofText s = .error (.entry (before.length + 1) entryFault) := by
  cases htext : ofText s with
  | ok map =>
    obtain ⟨entries, hentries, rfl⟩ := addLines_eq_ok.1 htext
    exact .inl ⟨entries, hentries, rfl⟩
  | error fault =>
    obtain ⟨before, line, after, entryFault, hlines, hbefore, hline, hfault, rfl⟩ := addLines_eq_error htext
    exact .inr ⟨before, line, after, entryFault, hlines, hbefore, hline, hfault, by rw [Nat.add_comm]⟩

theorem get?_update_iff {lines : List (List Char)} {entries : List (Option Entry)} {α : Type}
    (select : Entry → Option (String × α)) (h : List.Forall₂ Describes lines entries) (name : String) (value : α) :
    (Table.update [] (entries.filterMap (·.bind select))).get? name = some value ↔
      LastEntryFor select name lines value := by
  rw [get?_update_entries h]
  simp [Table.get?]

/-- A file is accepted as a type map when each line of its text says something: a line that is neither blank nor a
comment has a name, with or without parameters, before its first colon and a text after it. Then a table has the
values of the last entries of its kind for each name and nothing else. Otherwise the first line that says nothing is
told by its number, and what is wrong with it. -/
theorem ofFile_exact (h : Text.decodeUtf8 bytes = .ok s) :
    ((∃ map, ofFile (some bytes) = .ok map) ↔ ∀ line ∈ Text.lines s, ∃ entry, Describes line entry) ∧
    (∀ map, ofFile (some bytes) = .ok map →
      (map.scalars.names.Nodup ∧ ∀ name value, map.scalars.get? name = some value ↔
        LastEntryFor Entry.scalar? name (Text.lines s) value) ∧
      (map.templates.names.Nodup ∧ ∀ name template, map.templates.get? name = some template ↔
        LastEntryFor Entry.template? name (Text.lines s) template)) ∧
    ∀ fault, ofFile (some bytes) = .error fault → ∃ before line after entryFault,
      Text.lines s = before ++ line :: after ∧ (∀ l ∈ before, ∃ entry, Describes l entry) ∧
      (∀ entry, ¬ Describes line entry) ∧ IllFormed line entryFault ∧
      fault = .entry (before.length + 1) entryFault ∧
      ∀ path, fault.message path = path ++ ":" ++ toString (before.length + 1) ++ ": " ++ entryFault.message := by
  have hfile : ofFile (some bytes) = ofText s := by rw [ofFile, h]
  rw [hfile]
  rcases ofText_cases s with ⟨entries, hentries, heq⟩ |
    ⟨before, line, after, entryFault, hlines, hbefore, hline, hfault, heq⟩
  · have hboth : List.Forall₂ (fun line entry => (∃ entry, Describes line entry) ∧ Describes line entry)
        (Text.lines s) entries := hentries.imp fun _ entry hline => ⟨⟨entry, hline⟩, hline⟩
    obtain ⟨hlines, -⟩ := (List.forall₂_and_left _ _).1 hboth
    refine ⟨iff_of_true ⟨_, heq⟩ hlines, fun map hmap => ?_, fun fault hfault => ?_⟩
    · obtain rfl := Except.ok.inj (heq.symm.trans hmap)
      rw [scalars_addAll, templates_addAll]
      exact ⟨⟨@Table.nodup_names_update _ [] List.nodup_nil _, get?_update_iff Entry.scalar? hentries⟩,
        @Table.nodup_names_update _ [] List.nodup_nil _, get?_update_iff Entry.template? hentries⟩
    · cases heq.symm.trans hfault
  · refine ⟨iff_of_false ?_ fun hall => ?_, fun map hmap => ?_, fun fault hfault' => ?_⟩
    · rintro ⟨map, hmap⟩
      cases heq.symm.trans hmap
    · obtain ⟨entry, hentry⟩ := hall line (hlines ▸ List.mem_append_right before List.mem_cons_self)
      exact hline entry hentry
    · cases heq.symm.trans hmap
    · cases heq.symm.trans hfault'
      exact ⟨before, line, after, entryFault, hlines, hbefore, hline, hfault, rfl, fun path => rfl⟩

/-- Two entries for one name after a comment and a blank line, and a line without a colon in their place. -/
theorem ofFile_exact_numbered :
    (∃ map, ofFile (some "# one\n\nint: a\nint : b: c\n".toUTF8.toList) = .ok map ∧
      LastEntryFor Entry.scalar? "int" (Text.lines "# one\n\nint: a\nint : b: c\n".toList) "b: c") ∧
    ∃ fault line, ofFile (some "# one\n\nint: a\nint\n".toUTF8.toList) = .error fault ∧
      fault.message "types.map" = "types.map:4: expected 'CSharpType: typescriptType'" ∧
      (Text.lines "# one\n\nint: a\nint\n".toList)[3]? = some line ∧ IllFormed line .noEntry := by
  have hgood : Text.decodeUtf8 "# one\n\nint: a\nint : b: c\n".toUTF8.toList =
      .ok "# one\n\nint: a\nint : b: c\n".toList := by decide +kernel
  have hbad : Text.decodeUtf8 "# one\n\nint: a\nint\n".toUTF8.toList =
      .ok "# one\n\nint: a\nint\n".toList := by decide +kernel
  have haccepted : ofFile (some "# one\n\nint: a\nint : b: c\n".toUTF8.toList) =
      .ok { scalars := [("int", "b: c")] } := by decide +kernel
  have hrefused : ofFile (some "# one\n\nint: a\nint\n".toUTF8.toList) = .error (.entry 4 .noEntry) := by
    decide +kernel
  obtain ⟨-, htables, -⟩ := ofFile_exact hgood
  obtain ⟨before, line, after, entryFault, hlines, -, -, hfault, heq, -⟩ := (ofFile_exact hbad).2.2 _ hrefused
  obtain ⟨hnumber, rfl⟩ := Fault.entry.inj heq
  have hbefore : 3 = before.length := Nat.succ.inj hnumber
  refine ⟨⟨_, haccepted, ((htables _ haccepted).1.2 "int" "b: c").1 rfl⟩, _, line, hrefused, by decide +kernel, ?_,
    hfault⟩
  rw [hlines, hbefore, List.getElem?_append_right (Nat.le_refl _), Nat.sub_self]
  rfl

/-! ## Lines that look like entries -/

/-- What it means that a text is a name when its letters and digits may be those of any script. -/
def IsWordName (name : List Char) : Prop :=
  ∃ c r, name = c :: r ∧ Text.isWordChar c = true ∧ Text.digitValue? c = none ∧
    ∀ d ∈ r, Text.isWordChar d = true ∨ d = '.'

theorem isWordName_of_all {name r : List Char} {c : Char} (hname : name = c :: r) (hc : Text.isWordChar c = true)
    (hdigit : Text.digitValue? c = none) (hr : r.all Text.isWordChar = true) : IsWordName name :=
  ⟨c, r, hname, hc, hdigit, fun d hd => .inl (List.all_eq_true.1 hr d hd)⟩

/-- What it means that there is an entry around one of the colons of a line. -/
def HasEntryAround (line : List Char) : Prop :=
  ∃ before after name, Text.trim line = before ++ ':' :: after ∧ Text.isBlankText after = false ∧ IsWordName name ∧
    (Text.trim before = name ∨ ∃ inner, Text.trim before = name ++ '<' :: (inner ++ ['>']) ∧
      ∀ part ∈ Text.splitOn (· == ',') inner, Text.isBlankText part = false ∧ '<' ∉ part ∧ '>' ∉ part)

/-- A colon in a parameter ends the key, and letters of other scripts are in no name: such lines are not accepted,
although there is an entry around one of their colons. -/
theorem entries_around_refused :
    ((∀ line ∈ Text.lines "Foo<a:b>: x".toList, HasEntryAround line) ∧
      ofText "Foo<a:b>: x".toList = .error (.entry 1 (.badName "Foo<a"))) ∧
    (∀ line ∈ Text.lines "Größe: string".toList, HasEntryAround line) ∧
      ofText "Größe: string".toList = .error (.entry 1 (.badName "Größe")) := by
  have hcolon : Text.lines "Foo<a:b>: x".toList = ["Foo<a:b>: x".toList] := by decide
  have hletter : Text.lines "Größe: string".toList = ["Größe: string".toList] := by decide
  rw [hcolon, hletter, List.forall_mem_singleton, List.forall_mem_singleton]
  refine ⟨⟨⟨"Foo<a:b>".toList, " x".toList, "Foo".toList, by decide, by decide, ?_, .inr ⟨"a:b".toList, ?_⟩⟩, ?_⟩,
    ⟨"Größe".toList, " string".toList, "Größe".toList, by decide, by decide, ?_, .inl ?_⟩, ?_⟩
  · exact isWordName_of_all (c := 'F') (r := "oo".toList) (by decide) (by decide) (by decide) (by decide)
  · decide
  · decide +kernel
  · exact isWordName_of_all (c := 'G') (r := "röße".toList) (by decide) (by decide) (by decide) (by decide)
  · decide
  · decide +kernel

end TypeBridge.TypeMap
