import TypeBridge.Proofs.Output.Entry
import TypeBridge.Proofs.Source.Written

/-!
# Names in declaration files

Names are read off the lines of a declaration file here, in the way a reader of the file finds them, so that what is
said of names is said of what is written.

Results:
* `isName_propertyName`: the name of a property is one.
* `read_comment`: no names are read off comments.
* `introduced?_unionCode`, `introduced?_numericCode`, `introduced?_interfaceCode`: the names of declarations.
* `introduced?_eq_none`, `property?_name`, `read_propertyCode`: the name of a property.
* `names_allLines`: the names in some entries.
-/
namespace TypeBridge.Output

open Source (IsName Lexeme)

/-! ## Letters -/

/-- The code points from 128 on of which no character begins a word: those of spaces and of surrogates. -/
def wordGaps : List (Nat × Nat) := [
  (0x85, 0x85), (0xA0, 0xA0), (0x1680, 0x1680), (0x2000, 0x200A), (0x2028, 0x2029), (0x202F, 0x202F),
  (0x205F, 0x205F), (0x3000, 0x3000), (0xD800, 0xDFFF), (0xFEFF, 0xFEFF)]

/-- Whether all code points from the first one to the last one are those of small letters or of characters beyond
ASCII that begin words. -/
def beginWords (first last : Nat) : Bool :=
  (97 ≤ first && last ≤ 122) ||
    (128 ≤ first && last ≤ 0x10FFFF && wordGaps.all fun gap => last < gap.1 || gap.2 < first)

theorem isWordStart_small : ∀ n < 123, 97 ≤ n → Lexeme.isWordStart (Char.ofNat n) = true := by decide

theorem isWordStart_of_beginWords {first last n : Nat} (h : beginWords first last = true) (hfirst : first ≤ n)
    (hlast : n ≤ last) : Lexeme.isWordStart (Char.ofNat n) = true := by
  simp only [beginWords, wordGaps, List.all_cons, List.all_nil, Bool.and_true, Bool.or_eq_true, Bool.and_eq_true,
    decide_eq_true_eq] at h
  rcases h with h | h
  · exact isWordStart_small n (by omega) (by omega)
  · have hvalid : n.isValidChar := by unfold Nat.isValidChar; omega
    have hcode : (Char.ofNat n).toNat = n := by
      rw [Char.ofNat, dif_pos hvalid]
      rfl
    have hspace : Lexeme.isSpace (Char.ofNat n) = false := by
      simp only [Lexeme.isSpace, Text.isBlank, hcode, Bool.or_eq_false_iff, Bool.and_eq_false_iff,
        decide_eq_false_iff_not, beq_eq_false_iff_ne]
      omega
    simp only [Lexeme.isWordStart, hspace, hcode, Bool.not_false, Bool.and_true, Bool.or_eq_true, decide_eq_true_eq]
    omega

/-- Letters are lowered to characters that begin words. -/
theorem beginWords_caseRuns : ∀ run ∈ Text.caseRuns, 0 ≤ run.first + run.shift ∧
    beginWords (run.first + run.shift).toNat (run.last + run.shift).toNat = true := by
  decide +kernel

theorem isWordStart_of_mem_lowerChar {c d : Char} (hc : Lexeme.isWordStart c = true) (h : d ∈ Text.lowerChar c) :
    Lexeme.isWordStart d = true := by
  unfold Text.lowerChar at h
  split at h
  · simp only [List.mem_cons, List.not_mem_nil, or_false] at h
    rcases h with rfl | rfl
    · decide
    · decide
  · split at h
    · rename_i n hlower
      obtain ⟨run, hrun, hn⟩ := List.exists_of_findSome?_eq_some hlower
      obtain ⟨hpositive, hwords⟩ := beginWords_caseRuns run hrun
      unfold Text.CaseRun.lower? at hn
      split at hn
      · obtain rfl := Option.some.inj hn
        rw [List.mem_singleton.1 h]
        exact isWordStart_of_beginWords hwords (by omega) (by omega)
      · cases hn
    · rw [List.mem_singleton.1 h]
      exact hc

theorem lowerChar_ne_nil (c : Char) : Text.lowerChar c ≠ [] := by
  unfold Text.lowerChar
  split
  · exact List.cons_ne_nil _ _
  · split <;> exact List.cons_ne_nil _ _

/-- The name of a property is a name. -/
theorem isName_propertyName {name : String} (h : IsName name) : IsName (propertyName name) := by
  obtain ⟨c, r, hname, hc, hr⟩ := h
  have hstart : ∀ d ∈ Text.lowerChar c, Lexeme.isWordStart d = true := fun d => isWordStart_of_mem_lowerChar hc
  have hlower : (propertyName name).toList = Text.lowerChar c ++ r := by
    rw [propertyName, hname, String.toList_ofList, Text.lowerFirst]
  cases hfirst : Text.lowerChar c with
  | nil => exact absurd hfirst (lowerChar_ne_nil c)
  | cons d ds =>
    rw [hfirst] at hstart hlower
    obtain ⟨hd, hds⟩ := List.forall_mem_cons.1 hstart
    refine ⟨d, ds ++ r, hlower, hd, List.forall_mem_append.2 ⟨fun e he => ?_, hr⟩⟩
    rw [Lexeme.isWordPart, hds e he]
    rfl

/-! ## Lines -/

/-- A line without the blanks that indent it. -/
def unindented (line : String) : List Char := line.toList.dropWhile Text.isIndent

/-- The words that a declaration begins with. -/
def declarationWords : List String := ["export type ", "export enum ", "export interface "]

/-- The name that a line introduces for a declaration, if it does. -/
def introduced? (line : String) : Option String :=
  (declarationWords.findSome? fun word => Text.dropStart? word.toList (unindented line)).map fun rest =>
    .ofList (rest.takeWhile fun c => c != ' ' && c != '<')

/-- The name of the property on a line, if there is one: the line is no part of a comment, opens no declaration and
closes none. -/
def property? (line : String) : Option String :=
  match unindented line with
  | [] => none
  | c :: r =>
    if c == '/' || c == '*' || c == '\x7d' || (Text.dropStart? "export ".toList (c :: r)).isSome then none
    else some (.ofList ((c :: r).takeWhile fun c => c != ':' && c != '?'))

/-- The names that some lines introduce for declarations. -/
def introducedNames (lines : List String) : List String := lines.filterMap introduced?

/-- The names of the properties on some lines. -/
def propertyNames (lines : List String) : List String := lines.filterMap property?

theorem isIndent_indentation {options : Options} (h : ∀ c ∈ options.indentUnit.toList, Text.isIndent c = true)
    (level : Nat) : ∀ c ∈ (indentation options level).toList, Text.isIndent c = true :=
  fun c hc => h c (mem_indentation hc)

section Reading

variable {indent : String}

theorem unindented_append (h : ∀ c ∈ indent.toList, Text.isIndent c = true) {code : String} {c : Char}
    {r : List Char} (hcode : code.toList = c :: r) (hc : Text.isIndent c = false) :
    unindented (indent ++ code) = c :: r := by
  rw [unindented, String.toList_append, hcode, List.dropWhile_append_of_pos h,
    List.dropWhile_cons_of_neg (by simp [hc])]

/-- A name is read up to what may not be in it. -/
theorem takeWhile_isName {name : String} (h : IsName name) {p : Char → Bool}
    (hp : ∀ c, Lexeme.isWordPart c = true → p c = true) {c : Char} (hc : p c = false) (r : List Char) :
    (name.toList ++ c :: r).takeWhile p = name.toList := by
  rw [List.takeWhile_append_of_pos fun d hd => hp d (h.isWordPart d hd), List.takeWhile_cons_of_neg (by simp [hc]),
    List.append_nil]

/-- What follows a name is where it ends. -/
theorem eq_of_isName_append {name other : String} (hname : IsName name) (hother : IsName other) {c d : Char}
    (hc : Lexeme.isWordPart c = false) (hd : Lexeme.isWordPart d = false) {r s : List Char}
    (h : name.toList ++ c :: r = other.toList ++ d :: s) : c = d := by
  have hends := congrArg (List.dropWhile Lexeme.isWordPart) h
  rw [List.dropWhile_append_of_pos hname.isWordPart, List.dropWhile_append_of_pos hother.isWordPart,
    List.dropWhile_cons_of_neg (by simp [hc]), List.dropWhile_cons_of_neg (by simp [hd])] at hends
  exact (List.cons.inj hends).1

/-- A name that something else than a space follows is not the word that declarations begin with. -/
theorem dropStart?_export {name : String} (h : IsName name) {c : Char} (hc : Lexeme.isWordPart c = false)
    (hspace : c ≠ ' ') (r rest : List Char) :
    Text.dropStart? ("export ".toList ++ rest) (name.toList ++ c :: r) = none := by
  have hword : IsName "export" := ⟨'e', "xport".toList, rfl, by decide, List.all_eq_true.1 (by decide)⟩
  cases hstart : Text.dropStart? ("export ".toList ++ rest) (name.toList ++ c :: r) with
  | none => rfl
  | some left =>
    have heq := Text.eq_append_of_dropStart? hstart
    exact absurd (eq_of_isName_append h hword hc (by decide : Lexeme.isWordPart ' ' = false) heq) hspace

/-- Lines of comments and lines that close something have no names that count. -/
theorem read_of_mark {line : String} {c : Char} {r : List Char} (h : unindented line = c :: r)
    (hc : c ∈ ['/', '*', '\x7d']) : introduced? line = none ∧ property? line = none := by
  unfold introduced? property?
  rw [h]
  simp only [List.mem_cons, List.not_mem_nil, or_false] at hc
  rcases hc with rfl | rfl | rfl <;> exact ⟨rfl, rfl⟩

theorem read_closing (h : ∀ c ∈ indent.toList, Text.isIndent c = true) :
    introduced? (indent ++ "\x7d") = none ∧ property? (indent ++ "\x7d") = none :=
  read_of_mark (unindented_append h (show "\x7d".toList = _ from rfl) (by decide)) (by decide)

/-- A line that exports a declaration has no property. -/
theorem property?_export (h : ∀ c ∈ indent.toList, Text.isIndent c = true) {code : String}
    (hcode : "export ".toList <+: code.toList) : property? (indent ++ code) = none := by
  obtain ⟨r, hr⟩ := hcode
  rw [property?, unindented_append h hr.symm (by decide)]
  rfl

/-- A declaration is exported. -/
theorem exported_of_word {word : String} (hword : word ∈ declarationWords) (rest : String) :
    "export ".toList <+: (word ++ rest).toList := by
  have hstart : ∀ word ∈ declarationWords, "export ".toList <+: word.toList := by decide
  rw [String.toList_append]
  exact (hstart word hword).trans (List.prefix_append _ _)

/-- Each line of a comment begins with a mark. -/
theorem unindented_comment (h : ∀ c ∈ indent.toList, Text.isIndent c = true) {remarks : List String}
    {line : String} (hline : line ∈ commentUnlessEmpty indent remarks) :
    ∃ c r, unindented line = c :: r ∧ c ∈ ['/', '*', '\x7d'] := by
  have hinner : ∀ c ∈ (indent ++ " ").toList, Text.isIndent c = true := by
    rw [String.toList_append, List.forall_mem_append]
    exact ⟨h, List.all_eq_true.1 (by decide)⟩
  have hmarked (rest : String) : unindented (indent ++ (" *" ++ rest)) = '*' :: rest.toList := by
    have hsplit : indent ++ (" *" ++ rest) = indent ++ " " ++ ("*" ++ rest) := by
      simp [← String.toList_inj]
    rw [hsplit, unindented_append hinner (String.toList_append ..) (by decide)]
    rfl
  unfold commentUnlessEmpty at hline
  split at hline
  · cases hline
  · rw [comment, List.cons_append, List.mem_cons, List.mem_append, List.mem_map, List.mem_singleton] at hline
    rcases hline with rfl | ⟨remark, -, rfl⟩ | rfl
    · exact ⟨'/', _, unindented_append h (show "/**".toList = _ from rfl) (by decide), by decide⟩
    · split
      · exact ⟨'*', _, by simpa using hmarked "", by decide⟩
      · have hsplit : indent ++ " * " ++ remark = indent ++ (" *" ++ (" " ++ remark)) := by
          simp [← String.toList_inj]
        exact ⟨'*', _, hsplit ▸ hmarked (" " ++ remark), by decide⟩
    · exact ⟨'*', _, hmarked "/", by decide⟩

/-- No line of a comment has a name that counts. -/
theorem read_comment (h : ∀ c ∈ indent.toList, Text.isIndent c = true) (remarks : List String) :
    introducedNames (commentUnlessEmpty indent remarks) = [] ∧
      propertyNames (commentUnlessEmpty indent remarks) = [] := by
  have hlines : ∀ line ∈ commentUnlessEmpty indent remarks, introduced? line = none ∧ property? line = none := by
    intro line hline
    obtain ⟨c, r, heq, hc⟩ := unindented_comment h hline
    exact read_of_mark heq hc
  exact ⟨List.filterMap_eq_nil_iff.2 fun line hline => (hlines line hline).1,
    List.filterMap_eq_nil_iff.2 fun line hline => (hlines line hline).2⟩

/-! ## Declarations -/

theorem introduced?_word (h : ∀ c ∈ indent.toList, Text.isIndent c = true) {word name : String}
    (hword : word ∈ declarationWords) (hname : IsName name) {c : Char} (hc : c = ' ' ∨ c = '<') {rest : String}
    {r : List Char} (hrest : rest.toList = c :: r) :
    introduced? (indent ++ (word ++ (name ++ rest))) = some name := by
  have hstop : (c != ' ' && c != '<') = false := by rcases hc with rfl | rfl <;> rfl
  have hgoes : ∀ d, Lexeme.isWordPart d = true → (d != ' ' && d != '<') = true := by
    intro d hd
    have hspace : d ≠ ' ' := by rintro rfl; exact Bool.noConfusion hd
    have hless : d ≠ '<' := by rintro rfl; exact Bool.noConfusion hd
    simp [hspace, hless]
  have hname := takeWhile_isName hname hgoes hstop r
  have hfound : (declarationWords.findSome? fun other =>
      Text.dropStart? other.toList (word.toList ++ (name.toList ++ c :: r))) = some (name.toList ++ c :: r) := by
    simp only [declarationWords, List.mem_cons, List.not_mem_nil, or_false] at hword
    rcases hword with rfl | rfl | rfl <;> rfl
  have hline : unindented (indent ++ (word ++ (name ++ rest))) = word.toList ++ (name.toList ++ c :: r) := by
    have hcode : (word ++ (name ++ rest)).toList = word.toList ++ (name.toList ++ c :: r) := by
      rw [String.toList_append, String.toList_append, hrest]
    simp only [declarationWords, List.mem_cons, List.not_mem_nil, or_false] at hword
    rcases hword with rfl | rfl | rfl
    · exact unindented_append h hcode (by decide)
    · exact unindented_append h hcode (by decide)
    · exact unindented_append h hcode (by decide)
  rw [introduced?, hline, hfound, Option.map_some, hname, String.ofList_toList]

theorem introduced?_unionCode (h : ∀ c ∈ indent.toList, Text.isIndent c = true) {declaration : Enumeration}
    (hname : IsName declaration.name) : introduced? (indent ++ unionCode declaration) = some declaration.name :=
  introduced?_word h (by decide) hname (.inl rfl) (String.toList_append ..)

theorem introduced?_numericCode (h : ∀ c ∈ indent.toList, Text.isIndent c = true) {options : Options}
    {declaration : Enumeration} (hname : IsName (declaration.name ++ options.enumSuffix)) :
    introduced? (indent ++ numericCode options declaration) = some (declaration.name ++ options.enumSuffix) := by
  have hcode : numericCode options declaration =
      "export enum " ++ (declaration.name ++ options.enumSuffix ++ (" " ++ bodyText declaration.members)) := by
    rw [numericCode, String.append_assoc]
  rw [hcode]
  exact introduced?_word h (by decide) hname (.inl rfl) (String.toList_append ..)

theorem introduced?_interfaceCode (h : ∀ c ∈ indent.toList, Text.isIndent c = true) {type : TypeDeclaration}
    (hname : IsName type.name) : introduced? (indent ++ interfaceCode type) = some type.name := by
  have hrest : ∃ c r, (parametersText type.parameters ++ " \x7b").toList = c :: r ∧ (c = ' ' ∨ c = '<') := by
    unfold parametersText
    split
    · exact ⟨' ', ['\x7b'], rfl, .inl rfl⟩
    · exact ⟨'<', _, by rw [String.toList_append, String.toList_append]; rfl, .inr rfl⟩
  obtain ⟨c, r, hrest, hc⟩ := hrest
  exact introduced?_word h (by decide) hname hc hrest

/-- The code of a property is its name, and what follows a colon or a question mark. -/
theorem exists_propertyCode (translator : Translator) (scope : Scope) (member : Member) :
    ∃ c r, (propertyCode translator scope member).toList = (propertyName member.name).toList ++ c :: r ∧
      (c = ':' ∨ c = '?') := by
  unfold propertyCode
  split
  · exact ⟨'?', (": " ++ (memberType translator scope member).2 ++ ";").toList, by simp, .inr rfl⟩
  · exact ⟨':', (" " ++ (memberType translator scope member).2 ++ ";").toList, by simp, .inl rfl⟩

theorem unindented_name (h : ∀ c ∈ indent.toList, Text.isIndent c = true) {name code : String} (hname : IsName name)
    {rest : List Char} (hcode : code.toList = name.toList ++ rest) :
    unindented (indent ++ code) = name.toList ++ rest := by
  obtain ⟨c, r, heq, hc, -⟩ := hname
  have hspace : c ≠ ' ' := Lexeme.ne_of_isWordStart hc (by decide)
  have htab : c ≠ '\t' := Lexeme.ne_of_isWordStart hc (by decide)
  have hindent : Text.isIndent c = false := by simp [Text.isIndent, hspace, htab]
  rw [heq] at hcode ⊢
  exact unindented_append h hcode hindent

/-- A line that exports nothing introduces no declaration. -/
theorem introduced?_eq_none {line : String}
    (h : ∀ rest, Text.dropStart? ("export ".toList ++ rest) (unindented line) = none) : introduced? line = none := by
  rw [introduced?, Option.map_eq_none_iff, List.findSome?_eq_none_iff]
  intro word hword
  simp only [declarationWords, List.mem_cons, List.not_mem_nil, or_false] at hword
  rcases hword with rfl | rfl | rfl
  · exact h "type ".toList
  · exact h "enum ".toList
  · exact h "interface ".toList

/-- A line that begins with a name and exports nothing has a property of that name. -/
theorem property?_name {line name : String} (hname : IsName name) {stop : Char} (hstop : stop = ':' ∨ stop = '?')
    {rest : List Char} (hline : unindented line = name.toList ++ stop :: rest)
    (hexport : Text.dropStart? "export ".toList (unindented line) = none) : property? line = some name := by
  have hread : (name.toList ++ stop :: rest).takeWhile (fun c => c != ':' && c != '?') = name.toList := by
    refine takeWhile_isName hname (fun d hd => ?_) (by rcases hstop with rfl | rfl <;> rfl) rest
    have hcolon : d ≠ ':' := by rintro rfl; exact Bool.noConfusion hd
    have hmark : d ≠ '?' := by rintro rfl; exact Bool.noConfusion hd
    simp [hcolon, hmark]
  obtain ⟨c, r, heq, hc, -⟩ := hname
  have hslash : c ≠ '/' := Lexeme.ne_of_isWordStart hc (by decide)
  have hstar : c ≠ '*' := Lexeme.ne_of_isWordStart hc (by decide)
  have hbrace : c ≠ '\x7d' := Lexeme.ne_of_isWordStart hc (by decide)
  rw [property?]
  rw [hline, heq, List.cons_append] at hexport ⊢
  rw [heq, List.cons_append] at hread
  dsimp only
  rw [hexport, hread, ← heq, String.ofList_toList]
  simp [hslash, hstar, hbrace]

/-- The line of a property introduces no declaration and has the name of the property. -/
theorem read_propertyCode (h : ∀ c ∈ indent.toList, Text.isIndent c = true) (translator : Translator)
    (scope : Scope) {member : Member} (hmember : IsName member.name) :
    introduced? (indent ++ propertyCode translator scope member) = none ∧
      property? (indent ++ propertyCode translator scope member) = some (propertyName member.name) := by
  have hname := isName_propertyName hmember
  obtain ⟨stop, rest, hcode, hstop⟩ := exists_propertyCode translator scope member
  have hends : Lexeme.isWordPart stop = false := by rcases hstop with rfl | rfl <;> rfl
  have hspace : stop ≠ ' ' := by rcases hstop with rfl | rfl <;> decide
  have hline := unindented_name h hname hcode
  have hexport (word : List Char) : Text.dropStart? ("export ".toList ++ word)
      (unindented (indent ++ propertyCode translator scope member)) = none := by
    rw [hline]
    exact dropStart?_export hname hends hspace rest word
  exact ⟨introduced?_eq_none hexport, property?_name hname hstop hline (hexport [])⟩

end Reading

/-! ## Entries -/

/-- Names are found in the code of entries and not in their comments. -/
theorem names_allLines {entries : List Entry}
    (h : ∀ entry ∈ entries, ∀ c ∈ entry.indent.toList, Text.isIndent c = true) :
    introducedNames (Entry.allLines entries) = introducedNames (entries.map Entry.line) ∧
      propertyNames (Entry.allLines entries) = propertyNames (entries.map Entry.line) := by
  induction entries with
  | nil => exact ⟨rfl, rfl⟩
  | cons entry entries ih =>
    obtain ⟨hentry, hentries⟩ := List.forall_mem_cons.1 h
    obtain ⟨hintroduced, hproperties⟩ := ih hentries
    obtain ⟨hnone, hnoProperty⟩ := read_comment hentry entry.remarks
    simp only [introducedNames, propertyNames] at hintroduced hproperties hnone hnoProperty ⊢
    rw [Entry.allLines_cons, List.filterMap_append, List.filterMap_append, hnone, hnoProperty, List.map_cons,
      List.filterMap_cons, List.filterMap_cons, List.filterMap_cons, List.filterMap_cons, hintroduced, hproperties]
    exact ⟨rfl, rfl⟩

end TypeBridge.Output
