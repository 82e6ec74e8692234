import TypeBridge.Proofs.TypeText.Grammar
import TypeBridge.Translation.TypeText

/-!
# Writing TypeScript types

The text of a structure, with parentheses where the precedence asks for them.

Results:
* `writes_print`: the tokens of the text, and how tight they bind.
* `reads_print`: the text of a structure has that structure and no other.
-/
namespace TypeBridge.TsType

/-! ## Texts -/

def isFunction : TsType → Bool
  | .function _ _ => true
  | _ => false

/-- Whether brackets after the text would belong to its last part only. -/
def isOperator : TsType → Bool
  | .union _ _ => true
  | .function _ _ => true
  | _ => false

def parenthesizeIf (condition : Bool) (text : List Char) : List Char :=
  if condition then '(' :: (text ++ [')']) else text

/-- Texts with commas between them. -/
def separated (texts : List (List Char)) : List Char := [',', ' '].intercalate texts

mutual
/-- The text of a type. -/
def print : TsType → List Char
  | .name text => text.toList
  | .application head arguments => head.toList ++ '<' :: (separated (printAll arguments) ++ ['>'])
  | .array element => parenthesizeIf element.isOperator (print element) ++ ['[', ']']
  | .tuple elements => '[' :: (separated (printAll elements) ++ [']'])
  | .union left right =>
    parenthesizeIf left.isFunction (print left) ++ ' ' :: '|' :: ' ' ::
      parenthesizeIf right.isOperator (print right)
  | .function parameters result =>
    '(' :: (separated (printParameters parameters) ++ ')' :: ' ' :: '=' :: '>' :: ' ' :: print result)

def printAll : List TsType → List (List Char)
  | [] => []
  | type :: types => print type :: printAll types

def printParameters : List (String × TsType) → List (List Char)
  | [] => []
  | (label, type) :: parameters =>
    (label.toList ++ ':' :: ' ' :: print type) :: printParameters parameters
end

theorem printAll_eq_map (types : List TsType) : printAll types = types.map print := by
  induction types with
  | nil => rfl
  | cons type types ih => rw [printAll, ih, List.map_cons]

theorem printParameters_eq_map (parameters : List (String × TsType)) :
    printParameters parameters = parameters.map fun p => p.1.toList ++ ':' :: ' ' :: print p.2 := by
  induction parameters with
  | nil => rfl
  | cons p parameters ih => rw [printParameters, ih, List.map_cons]

/-- Structures that can be written when what has arguments is of a certain kind: every list of arguments or
elements has a member. -/
inductive WellFormed (good : String → Prop) : TsType → Prop
  | name {text : String} : IsWord text → WellFormed good (.name text)
  | application {name : String} {arguments : List TsType} :
    good name → arguments ≠ [] → (∀ type ∈ arguments, WellFormed good type) →
    WellFormed good (.application name arguments)
  | array {element : TsType} : WellFormed good element → WellFormed good (.array element)
  | tuple {elements : List TsType} :
    elements ≠ [] → (∀ type ∈ elements, WellFormed good type) → WellFormed good (.tuple elements)
  | union {left right : TsType} :
    WellFormed good left → WellFormed good right → WellFormed good (.union left right)
  | function {parameters : List (String × TsType)} {result : TsType} :
    (∀ p ∈ parameters, IsWord p.1) → (∀ p ∈ parameters, WellFormed good p.2) → WellFormed good result →
    WellFormed good (.function parameters result)

theorem WellFormed.mono {good good' : String → Prop} (hgood : ∀ text, good text → good' text)
    {t : TsType} (h : t.WellFormed good) : t.WellFormed good' := by
  induction h with
  | name htext => exact .name htext
  | application hhead hne _ ih => exact .application (hgood _ hhead) hne ih
  | array _ ih => exact .array ih
  | tuple hne _ ih => exact .tuple hne ih
  | union _ _ ihl ihr => exact .union ihl ihr
  | function hlabels _ _ ihps ih => exact .function hlabels ihps ih

theorem separated_cons_cons (text text' : List Char) (texts : List (List Char)) :
    separated (text :: text' :: texts) = text ++ ',' :: ' ' :: separated (text' :: texts) := by
  simp [separated, List.intercalate_cons_cons]

theorem separated_singleton (text : List Char) : separated [text] = text := by
  simp [separated]

/-! ## Structure of the text -/

/-- The tokens of a text, whatever follows it outside of a word. -/
def Spelled (text : List Char) (ts : List TsToken) : Prop :=
  ∀ rest, startsWord rest = false → lex (text ++ rest) = (lex rest).map (ts ++ ·)

theorem IsWord.spelled {text : String} (h : IsWord text) : Spelled text.toList [.word text] := by
  intro rest hrest
  rw [lex_word h.1 h.2 hrest, String.ofList_toList]
  rfl

theorem Spelled.nil : Spelled [] [] := by
  intro rest _
  cases h : lex rest <;> simp [h]

theorem Spelled.blank {text : List Char} {ts : List TsToken} (h : Spelled text ts) :
    Spelled (' ' :: text) ts := by
  intro rest hrest
  rw [List.cons_append, lex_blank, h rest hrest]

theorem Spelled.arrow {text : List Char} {ts : List TsToken} (h : Spelled text ts) :
    Spelled ('=' :: '>' :: text) (.arrow :: ts) := by
  intro rest hrest
  rw [List.cons_append, List.cons_append, lex_arrow, h rest hrest, Option.map_map]
  rfl

theorem Spelled.mark {c : Char} {mark : TsToken} (hc : mark? c = some mark) {text : List Char}
    {ts : List TsToken} (h : Spelled text ts) : Spelled (c :: text) (mark :: ts) := by
  intro rest hrest
  rw [List.cons_append, lex_mark hc, h rest hrest, Option.map_map]
  rfl

/-- Texts next to each other, the second of which does not go on with a word. -/
theorem Spelled.append {c : Char} (hc : isWordChar c = false) {text text' : List Char}
    {ts ts' : List TsToken} (h : Spelled text ts) (h' : Spelled (c :: text') ts') :
    Spelled (text ++ c :: text') (ts ++ ts') := by
  intro rest hrest
  rw [List.append_assoc, h (c :: text' ++ rest) hc, h' rest hrest, Option.map_map]
  congr 1
  funext x
  simp

theorem Spelled.parentheses {text : List Char} {ts : List TsToken} (h : Spelled text ts) :
    Spelled ('(' :: (text ++ [')'])) (.openParen :: (ts ++ [.closeParen])) :=
  .mark rfl (.append rfl h (.mark rfl .nil))

/-- One more pair of brackets after an operand. -/
theorem Derives.brackets_append {base element : TsType} {a : List TsToken}
    (h : Derives (.brackets base element) a) :
    Derives (.brackets base (.array element)) (a ++ [.openBracket, .closeBracket]) := by
  generalize hp : Phrase.brackets base element = phrase at h
  induction h generalizing base with
  | noBrackets => cases hp; exact .brackets .noBrackets
  | brackets _ ih => cases hp; exact .brackets (ih rfl)
  | _ => cases hp

/-- One more alternative at the end of a union. -/
theorem Derives.alternatives_append {first left right : TsType} {a b : List TsToken}
    (h : Derives (.alternatives first left) a) (hright : Derives (.operand right) b) :
    Derives (.alternatives first (.union left right)) (a ++ .bar :: b) := by
  generalize hp : Phrase.alternatives first left = phrase at h
  induction h generalizing first with
  | noAlternative =>
    cases hp
    have : Derives (.alternatives left (.union left right)) (.bar :: (b ++ [])) :=
      .alternative hright .noAlternative
    rwa [List.append_nil] at this
  | @alternative _ _ _ c d hnext _ _ ih =>
    cases hp
    have := Derives.alternative hnext (ih rfl)
    simpa using this
  | _ => cases hp

/-- What is known of the text of a structure: its tokens, and how tight it binds. -/
structure Writes (text : List Char) (t : TsType) (ts : List TsToken) : Prop where
  spelled : Spelled text ts
  type : Derives (.type t) ts
  union : t.isFunction = false → Derives (.union t) ts
  operand : t.isOperator = false → Derives (.operand t) ts

theorem Writes.of_operand {text : List Char} {t : TsType} {ts : List TsToken} (hs : Spelled text ts)
    (h : Derives (.operand t) ts) : Writes text t ts := by
  have hunion : Derives (.union t) ts := by
    have := Derives.union h .noAlternative
    rwa [List.append_nil] at this
  exact ⟨hs, .ofUnion hunion, fun _ => hunion, fun _ => h⟩

theorem Derives.operand_of_primary {t : TsType} {ts : List TsToken} (h : Derives (.primary t) ts) :
    Derives (.operand t) ts := by
  have := Derives.operand h .noBrackets
  rwa [List.append_nil] at this

/-- Parentheses, when they are needed, make an operand. -/
theorem Writes.operand_parenthesizeIf {text : List Char} {t : TsType} {ts : List TsToken}
    (h : Writes text t ts) :
    ∃ ts', Spelled (parenthesizeIf t.isOperator text) ts' ∧ Derives (.operand t) ts' := by
  cases ho : t.isOperator with
  | false => exact ⟨ts, h.spelled, h.operand ho⟩
  | true => exact ⟨_, h.spelled.parentheses, .operand_of_primary (.parentheses h.type)⟩

theorem Writes.union_parenthesizeIf {text : List Char} {t : TsType} {ts : List TsToken}
    (h : Writes text t ts) :
    ∃ ts', Spelled (parenthesizeIf t.isFunction text) ts' ∧ Derives (.union t) ts' := by
  cases ho : t.isFunction with
  | false => exact ⟨ts, h.spelled, h.union ho⟩
  | true =>
    have hp := Derives.union (.operand_of_primary (.parentheses h.type)) .noAlternative
    rw [List.append_nil] at hp
    exact ⟨_, h.spelled.parentheses, hp⟩

theorem spelled_separated {types : List TsType} (hne : types ≠ [])
    (h : ∀ t ∈ types, ∃ ts, Writes t.print t ts) :
    ∃ ts, Spelled (separated (printAll types)) ts ∧ Derives (.types types) ts := by
  induction types with
  | nil => exact absurd rfl hne
  | cons t types ih =>
    obtain ⟨ts, ht⟩ := h t (by simp)
    cases types with
    | nil => exact ⟨ts, by simpa [printAll, separated_singleton] using ht.spelled, .lastType ht.type⟩
    | cons t' types =>
      obtain ⟨ts', hs, hd⟩ := ih (by simp) fun u hu => h u (List.mem_cons_of_mem _ hu)
      refine ⟨ts ++ .comma :: ts', ?_, .moreTypes ht.type hd⟩
      rw [printAll, printAll, separated_cons_cons]
      exact .append rfl ht.spelled (.mark rfl (.blank hs))

theorem spelled_parameter {label : String} (hlabel : IsWord label) {text : List Char}
    {ts : List TsToken} (h : Spelled text ts) :
    Spelled (label.toList ++ ':' :: ' ' :: text) (.word label :: .colon :: ts) :=
  .append rfl hlabel.spelled (.mark rfl h.blank)

theorem spelled_parameters {parameters : List (String × TsType)} (hne : parameters ≠ [])
    (hlabels : ∀ p ∈ parameters, IsWord p.1) (h : ∀ p ∈ parameters, ∃ ts, Writes p.2.print p.2 ts) :
    ∃ ts, Spelled (separated (printParameters parameters)) ts ∧ Derives (.parameters parameters) ts := by
  induction parameters with
  | nil => exact absurd rfl hne
  | cons p parameters ih =>
    obtain ⟨label, t⟩ := p
    obtain ⟨ts, ht⟩ := h (label, t) (by simp)
    have hp := spelled_parameter (hlabels (label, t) (by simp)) ht.spelled
    cases parameters with
    | nil =>
      exact ⟨_, by simpa [printParameters, separated_singleton] using hp, .lastParameter label ht.type⟩
    | cons p' parameters =>
      obtain ⟨ts', hs, hd⟩ := ih (by simp) (fun q hq => hlabels q (List.mem_cons_of_mem _ hq))
        fun q hq => h q (List.mem_cons_of_mem _ hq)
      refine ⟨_, ?_, .moreParameters label ht.type hd⟩
      rw [printParameters, printParameters, separated_cons_cons]
      exact .append rfl hp (.mark rfl (.blank hs))

theorem writes_print {t : TsType} (h : t.WellFormed IsWord) : ∃ ts, Writes t.print t ts := by
  induction h with
  | @name text htext => exact ⟨_, .of_operand htext.spelled (.operand_of_primary (.name text))⟩
  | @application head arguments hhead hne _ ih =>
    obtain ⟨ts, hs, hd⟩ := spelled_separated hne ih
    refine ⟨_, .of_operand ?_ (.operand_of_primary (.application head hd))⟩
    exact .append rfl hhead.spelled (.mark rfl (.append rfl hs (.mark rfl .nil)))
  | @array element _ ih =>
    obtain ⟨ts, ht⟩ := ih
    obtain ⟨ts', hs, hd⟩ := ht.operand_parenthesizeIf
    cases hd with
    | operand hp hb =>
      refine ⟨_, .of_operand ?_ (.operand hp hb.brackets_append)⟩
      rw [← List.append_assoc]
      exact .append rfl hs (.mark rfl (.mark rfl .nil))
  | @tuple elements hne _ ih =>
    obtain ⟨ts, hs, hd⟩ := spelled_separated hne ih
    refine ⟨_, .of_operand ?_ (.operand_of_primary (.tuple hd))⟩
    exact .mark rfl (.append rfl hs (.mark rfl .nil))
  | @union left right _ _ ihl ihr =>
    obtain ⟨tsl, htl⟩ := ihl
    obtain ⟨tsr, htr⟩ := ihr
    obtain ⟨a, hsl, hdl⟩ := htl.union_parenthesizeIf
    obtain ⟨b, hsr, hdr⟩ := htr.operand_parenthesizeIf
    cases hdl with
    | @union _ _ c d ho ha =>
      have hunion := Derives.union ho (ha.alternatives_append hdr)
      rw [← List.append_assoc] at hunion
      refine ⟨_, ?_, .ofUnion hunion, fun _ => hunion, nofun⟩
      exact .append rfl hsl (.blank (.mark rfl (.blank hsr)))
  | @function parameters result hlabels _ _ ihps ih =>
    obtain ⟨tsr, htr⟩ := ih
    have hend : Spelled (')' :: ' ' :: '=' :: '>' :: ' ' :: result.print) (.closeParen :: .arrow :: tsr) :=
      .mark rfl (.blank (.arrow (.blank htr.spelled)))
    cases parameters with
    | nil =>
      refine ⟨_, .mark rfl ?_, .action htr.type, nofun, nofun⟩
      exact hend
    | cons p parameters =>
      obtain ⟨ts, hs, hd⟩ := spelled_parameters (by simp) hlabels ihps
      refine ⟨_, .mark rfl ?_, .function hd htr.type, nofun, nofun⟩
      exact .append rfl hs hend

/-- The text of a structure has that structure and no other. -/
theorem reads_print {t : TsType} (h : t.WellFormed IsWord) {text : String} (htext : text.toList = t.print)
    (type : TsType) : Reads text type ↔ type = t := by
  obtain ⟨ts, hs, hd, -, -⟩ := writes_print h
  have hread : Reads text t := by
    have hlex := hs [] rfl
    rw [List.append_nil] at hlex
    exact ⟨ts, by rw [htext, hlex, lex_nil, Option.map_some, List.append_nil], hd⟩
  exact ⟨fun h' => h'.unique hread, fun h' => h' ▸ hread⟩

end TypeBridge.TsType
