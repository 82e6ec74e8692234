import TypeBridge.Proofs.TypeExpr.Writing
import TypeBridge.Proofs.Text.Separator
import TypeBridge.Translation.Basic

/-!
# The spellings of a type

A type can be spelled in many ways: with any blanks between its tokens, with `@` before any identifier, with `global::`
before any name and with parentheses around any type. Each spelling is read as that type, and nothing else is.
Spellings follow the tree, where the grammar follows the reader: here a suffix makes one tree of another, there it is
what goes on after a primary type.

Results:
* `derives_of_spells`, `spelledBy_of_derives`: trees are spelled as the grammar derives them.
* `parse_eq_ok_iff_isSpelling`: what a text denotes.
* `isSpelling_written`: every well-formed tree has a spelling.
* `parse_spellings`: reading undoes every spelling.
-/
namespace TypeBridge.TypeExpr

/-- The tokens with which types and parts of them can be spelled, up to the ways of writing them. -/
inductive Spells : Phrase → List Token → Prop
  | named {name : TypeName} {a : List Token} : IsName name a → Spells (.type (.named name)) a
  | generic {name : TypeName} {arguments : List TypeExpr} {a b : List Token} :
    IsName name a → Spells (.types arguments) b →
    Spells (.type (.generic name arguments)) (a ++ .less :: (b ++ [.greater]))
  | array {element : TypeExpr} {a : List Token} (commas : Nat) :
    Spells (.type element) a →
    Spells (.type (.array element (1 + commas)))
      (a ++ .openBracket :: (List.replicate commas .comma ++ [.closeBracket]))
  | nullable {inner : TypeExpr} {a : List Token} :
    Spells (.type inner) a → Spells (.type (.nullable inner)) (a ++ [.question])
  | tuple {elements : List (Option String × TypeExpr)} {a : List Token} :
    Spells (.elements elements) a → (∀ type, elements ≠ [(none, type)]) →
    Spells (.type (.tuple elements)) (.openParen :: (a ++ [.closeParen]))
  | parentheses {type : TypeExpr} {a : List Token} :
    Spells (.type type) a → Spells (.type type) (.openParen :: (a ++ [.closeParen]))
  | unlabelled {type : TypeExpr} {a : List Token} : Spells (.type type) a → Spells (.element (none, type)) a
  | labelled {type : TypeExpr} {a : List Token} (label : String) :
    Spells (.type type) a → Spells (.element (some label, type)) (a ++ [.name label])
  | lastElement {element : Option String × TypeExpr} {a : List Token} :
    Spells (.element element) a → Spells (.elements [element]) a
  | moreElements {element : Option String × TypeExpr} {elements : List (Option String × TypeExpr)}
      {a b : List Token} :
    Spells (.element element) a → Spells (.elements elements) b →
    Spells (.elements (element :: elements)) (a ++ .comma :: b)
  | lastType {type : TypeExpr} {a : List Token} : Spells (.type type) a → Spells (.types [type]) a
  | moreTypes {type : TypeExpr} {types : List TypeExpr} {a b : List Token} :
    Spells (.type type) a → Spells (.types types) b → Spells (.types (type :: types)) (a ++ .comma :: b)

/-- What it means that a text is a spelling of a type. -/
def IsSpelling (type : TypeExpr) (text : String) : Prop := ∃ ts, Spells (.type type) ts ∧ Writes ts text.toList

/-! ## Spellings and the grammar -/

/-- Suffixes that follow suffixes. -/
theorem Derives.suffixes_append {base type last : TypeExpr} {a b : List Token}
    (h : Derives (.suffixes base type) a) (hlast : Derives (.suffixes type last) b) :
    Derives (.suffixes base last) (a ++ b) := by
  generalize hphrase : Phrase.suffixes base type = phrase at h
  induction h generalizing base with
  | noSuffix =>
    cases hphrase
    exact hlast
  | question _ ih =>
    cases hphrase
    exact .question (ih rfl)
  | brackets commas _ ih =>
    cases hphrase
    rw [List.cons_append, List.append_assoc, List.cons_append]
    exact .brackets commas (ih rfl)
  | _ => cases hphrase

/-- A type goes on with suffixes. -/
theorem Derives.type_append {base type : TypeExpr} {a b : List Token} (h : Derives (.type base) a)
    (hsuffixes : Derives (.suffixes base type) b) : Derives (.type type) (a ++ b) := by
  cases h with
  | type hprimary hfirst =>
    rw [List.append_assoc]
    exact .type hprimary (hfirst.suffixes_append hsuffixes)

theorem Derives.type_of_primary {type : TypeExpr} {a : List Token} (h : Derives (.primary type) a) :
    Derives (.type type) a := by
  have htype := Derives.type h .noSuffix
  rwa [List.append_nil] at htype

theorem derives_of_spells {phrase : Phrase} {a : List Token} (h : Spells phrase a) : Derives phrase a := by
  induction h with
  | named hname => exact .type_of_primary (.named hname)
  | generic hname _ ih => exact .type_of_primary (.generic hname ih)
  | array commas _ ih => exact ih.type_append (.brackets commas .noSuffix)
  | nullable _ ih => exact ih.type_append (.question .noSuffix)
  | tuple _ hne ih => exact .type_of_primary (.tuple ih hne)
  | parentheses _ ih => exact .type_of_primary (.parentheses ih)
  | unlabelled _ ih => exact .unlabelled ih
  | labelled label _ ih => exact .labelled label ih
  | lastElement _ ih => exact .lastElement ih
  | moreElements _ _ ih ihs => exact .moreElements ih ihs
  | lastType _ ih => exact .lastType ih
  | moreTypes _ _ ih ihs => exact .moreTypes ih ihs

/-- How a part of the grammar is spelled. Suffixes turn a spelling of one type into one of another. -/
def SpelledBy (a : List Token) : Phrase → Prop
  | .type t => Spells (.type t) a
  | .suffixes base t => ∀ b, Spells (.type base) b → Spells (.type t) (b ++ a)
  | .primary t => Spells (.type t) a
  | .element e => Spells (.element e) a
  | .elements es => Spells (.elements es) a
  | .types ts => Spells (.types ts) a

theorem spelledBy_of_derives {phrase : Phrase} {a : List Token} (h : Derives phrase a) : SpelledBy a phrase := by
  induction h with
  | type _ _ ihbase ihsuffixes => exact ihsuffixes _ ihbase
  | noSuffix =>
    intro b hb
    rwa [List.append_nil]
  | question _ ih =>
    intro b hb
    rw [List.append_cons]
    exact ih _ (.nullable hb)
  | @brackets base type a commas _ ih =>
    intro b hb
    have harray := ih _ (.array commas hb)
    simpa only [List.append_assoc, List.cons_append, List.nil_append] using harray
  | parentheses _ ih => exact Spells.parentheses ih
  | tuple _ hne ih => exact Spells.tuple ih hne
  | named hname => exact Spells.named hname
  | generic hname _ ih => exact Spells.generic hname ih
  | unlabelled _ ih => exact Spells.unlabelled ih
  | labelled label _ ih => exact Spells.labelled label ih
  | lastElement _ ih => exact Spells.lastElement ih
  | moreElements _ _ ih ihs => exact Spells.moreElements ih ihs
  | lastType _ ih => exact Spells.lastType ih
  | moreTypes _ _ ih ihs => exact Spells.moreTypes ih ihs

/-- A type is spelled with the tokens that the grammar derives it for. -/
theorem spells_iff_derives {type : TypeExpr} {ts : List Token} : Spells (.type type) ts ↔ Derives (.type type) ts :=
  ⟨derives_of_spells, spelledBy_of_derives⟩

/-- A text denotes a type exactly when it is a spelling of it. -/
theorem parse_eq_ok_iff_isSpelling {text : String} {type : TypeExpr} :
    parse text = .ok type ↔ IsSpelling type text := by
  simp only [parse_eq_ok, IsSpelling, tokens_eq_ok_iff, spells_iff_derives, and_comm]

/-! ## One spelling of each tree -/

/-- The tokens of a name. -/
def nameTokens (name : TypeName) : List Token :=
  (name.qualifier.flatMap fun part => [.name part, .dot]) ++ [.name name.simple]

mutual
/-- Tokens with which a tree is spelled, without needless parentheses. -/
def spelled : TypeExpr → List Token
  | .named name => nameTokens name
  | .generic name arguments =>
    nameTokens name ++ .less :: ([Token.comma].intercalate (spelledAll arguments) ++ [.greater])
  | .array element rank =>
    spelled element ++ .openBracket :: (List.replicate (rank - 1) .comma ++ [.closeBracket])
  | .nullable inner => spelled inner ++ [.question]
  | .tuple elements => .openParen :: ([Token.comma].intercalate (spelledElements elements) ++ [.closeParen])

/-- The tokens of each of some arguments. -/
def spelledAll : List TypeExpr → List (List Token)
  | [] => []
  | type :: types => spelled type :: spelledAll types

/-- The tokens of each of some elements of a tuple. -/
def spelledElements : List (Option String × TypeExpr) → List (List Token)
  | [] => []
  | (label, type) :: elements => (spelled type ++ label.toList.map .name) :: spelledElements elements
end

/-- A spelling of a tree. -/
def written (type : TypeExpr) : String := .ofList (write (spelled type))

/-- The tokens of an element of a tuple. -/
def spelledElement (element : Option String × TypeExpr) : List Token :=
  spelled element.2 ++ element.1.toList.map .name

theorem spelledAll_eq_map (types : List TypeExpr) : spelledAll types = types.map spelled := by
  induction types with
  | nil => rfl
  | cons type types ih => rw [spelledAll, ih, List.map_cons]

theorem spelledElements_eq_map (elements : List (Option String × TypeExpr)) :
    spelledElements elements = elements.map spelledElement := by
  induction elements with
  | nil => rfl
  | cons element elements ih => rw [spelledElements, ih, List.map_cons, spelledElement]

theorem dot_flatMap (parts : List String) (last : String) :
    .dot :: ((parts.flatMap fun part => [.name part, .dot]) ++ [.name last]) = dotted (parts ++ [last]) := by
  induction parts with
  | nil => rfl
  | cons part parts ih =>
    rw [List.flatMap_cons, List.append_assoc, List.cons_append, List.singleton_append, ih]
    rfl

theorem isName_nameTokens (name : TypeName) : IsName name (nameTokens name) := by
  obtain ⟨qualifier, simple⟩ := name
  cases qualifier with
  | nil => exact .plain simple []
  | cons first parts =>
    have hname : (⟨first :: parts, simple⟩ : TypeName) = .ofSegments first (parts ++ [simple]) := by
      simp only [TypeName.ofSegments, ← List.cons_append, List.dropLast_concat, List.getLast_concat]
    have htokens : nameTokens ⟨first :: parts, simple⟩ = .name first :: dotted (parts ++ [simple]) := by
      rw [← dot_flatMap]
      rfl
    rw [htokens, hname]
    exact .plain first _

theorem isIdentifier_of_mem_nameTokens {name : TypeName} (h : name.WellFormed) {text : String}
    (htext : .name text ∈ nameTokens name) : IsIdentifier text := by
  refine h text ?_
  simpa [nameTokens, TypeName.segments] using htext

theorem spells_types {types : List TypeExpr} (hne : types ≠ [])
    (h : ∀ type ∈ types, Spells (.type type) (spelled type)) :
    Spells (.types types) ([Token.comma].intercalate (types.map spelled)) := by
  induction types with
  | nil => exact absurd rfl hne
  | cons type types ih =>
    obtain ⟨htype, htypes⟩ := List.forall_mem_cons.1 h
    cases types with
    | nil =>
      rw [List.map_singleton, List.intercalate_singleton]
      exact .lastType htype
    | cons second types =>
      rw [List.map_cons, List.map_cons, List.intercalate_cons_cons, List.append_assoc, ← List.map_cons]
      exact .moreTypes htype (ih (by simp) htypes)

theorem spells_element {element : Option String × TypeExpr} (h : Spells (.type element.2) (spelled element.2)) :
    Spells (.element element) (spelledElement element) := by
  obtain ⟨label, type⟩ := element
  cases label with
  | none =>
    rw [spelledElement, Option.toList_none, List.map_nil, List.append_nil]
    exact .unlabelled h
  | some label => exact .labelled label h

theorem spells_elements {elements : List (Option String × TypeExpr)} (hne : elements ≠ [])
    (h : ∀ element ∈ elements, Spells (.type element.2) (spelled element.2)) :
    Spells (.elements elements) ([Token.comma].intercalate (elements.map spelledElement)) := by
  induction elements with
  | nil => exact absurd rfl hne
  | cons element elements ih =>
    obtain ⟨helement, helements⟩ := List.forall_mem_cons.1 h
    cases elements with
    | nil =>
      rw [List.map_singleton, List.intercalate_singleton]
      exact .lastElement (spells_element helement)
    | cons second elements =>
      rw [List.map_cons, List.map_cons, List.intercalate_cons_cons, List.append_assoc, ← List.map_cons]
      exact .moreElements (spells_element helement) (ih (by simp) helements)

theorem spells_spelled {type : TypeExpr} (h : type.WellFormed) : Spells (.type type) (spelled type) := by
  induction h with
  | @named name _ => exact .named (isName_nameTokens name)
  | @generic name arguments _ hne _ ih =>
    rw [spelled, spelledAll_eq_map]
    exact .generic (isName_nameTokens name) (spells_types hne ih)
  | @array element rank _ hrank ih =>
    obtain ⟨commas, rfl⟩ := Nat.exists_eq_add_of_le hrank
    rw [spelled, Nat.add_sub_cancel_left]
    exact .array commas ih
  | nullable _ ih => exact .nullable ih
  | tuple hne hlabel _ _ ih =>
    rw [spelled, spelledElements_eq_map]
    exact .tuple (spells_elements hne ih) hlabel

theorem isIdentifier_of_mem_spelled {type : TypeExpr} (h : type.WellFormed) {text : String}
    (htext : .name text ∈ spelled type) : IsIdentifier text := by
  induction h with
  | named hname => exact isIdentifier_of_mem_nameTokens hname htext
  | generic hname _ _ ih =>
    rw [spelled, spelledAll_eq_map] at htext
    rcases List.mem_append.1 htext with htext | htext
    · exact isIdentifier_of_mem_nameTokens hname htext
    · simp only [List.mem_cons, List.mem_append, reduceCtorEq, false_or, List.not_mem_nil, or_false] at htext
      obtain hcomma | ⟨part, hpart, htext⟩ := mem_intercalate htext
      · simp at hcomma
      · obtain ⟨type, htype, rfl⟩ := List.mem_map.1 hpart
        exact ih type htype htext
  | array _ _ ih => exact ih (by simpa [spelled] using htext)
  | nullable _ ih => exact ih (by simpa [spelled] using htext)
  | tuple _ _ _ hlabels ih =>
    rw [spelled, spelledElements_eq_map] at htext
    simp only [List.mem_cons, List.mem_append, reduceCtorEq, false_or, List.not_mem_nil, or_false] at htext
    obtain hcomma | ⟨part, hpart, htext⟩ := mem_intercalate htext
    · simp at hcomma
    · obtain ⟨element, helement, rfl⟩ := List.mem_map.1 hpart
      rcases List.mem_append.1 htext with htext | htext
      · exact ih element helement htext
      · exact hlabels element helement text (by simpa using htext)

/-- What is written for a well-formed tree is a spelling of it. -/
theorem isSpelling_written {type : TypeExpr} (h : type.WellFormed) : IsSpelling type type.written := by
  refine ⟨spelled type, spells_spelled h, ?_⟩
  rw [written, String.toList_ofList]
  exact writes_write fun text htext => isIdentifier_of_mem_spelled h htext

/-! ## Reading undoes every spelling -/

/-- A text denotes a tree exactly when it is a spelling of it, and the trees that have spellings are the well-formed
ones; one of their spellings is the one that is written for them. So no text of a translation depends on how a type is
spelled. -/
theorem parse_spellings :
    (∀ text type, parse text = .ok type ↔ IsSpelling type text) ∧
    (∀ type, type.WellFormed ↔ ∃ text, IsSpelling type text) ∧
    (∀ type, type.WellFormed → parse type.written = .ok type) ∧
    ∀ (translator : Translator) (scope : Scope) (type : TypeExpr) (first second : String),
      IsSpelling type first → IsSpelling type second →
        translator.translate scope first = translator.translate scope second := by
  refine ⟨fun _ _ => parse_eq_ok_iff_isSpelling, fun type => ?_, fun type h => ?_, ?_⟩
  · constructor
    · exact fun h => ⟨_, isSpelling_written h⟩
    · rintro ⟨text, h⟩
      exact wellFormed_of_parse (parse_eq_ok_iff_isSpelling.2 h)
  · exact parse_eq_ok_iff_isSpelling.2 (isSpelling_written h)
  · intro translator scope type first second hfirst hsecond
    rw [Translator.translate, Translator.translate, parse_eq_ok_iff_isSpelling.2 hfirst,
      parse_eq_ok_iff_isSpelling.2 hsecond]

/-- Blanks of several kinds, marks before identifiers and names, and parentheses that are not needed. -/
theorem parse_spellings_dictionary :
    let type : TypeExpr :=
      .generic ⟨["System"], "Dictionary"⟩ [.named ⟨[], "string"⟩, .nullable (.array (.named ⟨[], "int"⟩) 2)]
    let other := " ( global :: System . @Dictionary\t<(@string),\u2003(int)[ , ] ?> )"
    type.written = "System.Dictionary<string,int[,]?>" ∧ IsSpelling type other ∧
      ∀ (translator : Translator) (scope : Scope),
        translator.translate scope other = translator.translate scope type.written := by
  intro type other
  have htokens : tokens other =
      .ok [.openParen, .name "global", .alias, .name "System", .dot, .name "Dictionary", .less, .openParen,
        .name "string", .closeParen, .comma, .openParen, .name "int", .closeParen, .openBracket, .comma, .closeBracket,
        .question, .greater, .closeParen] := by decide +kernel
  have hspelling : IsSpelling type other := (parse_spellings.1 other type).1 (parse_of_tokens htokens rfl)
  refine ⟨by decide +kernel, hspelling, fun translator scope => ?_⟩
  have hwellFormed : type.WellFormed := (parse_spellings.2.1 type).2 ⟨other, hspelling⟩
  have hwritten := (parse_spellings.1 _ type).1 (parse_spellings.2.2.1 type hwellFormed)
  exact parse_spellings.2.2.2 translator scope type other _ hspelling hwritten

end TypeBridge.TypeExpr
