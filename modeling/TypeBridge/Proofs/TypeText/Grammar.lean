import TypeBridge.Text.Blank
import Mathlib.Data.List.Chain

/-!
# The structure of TypeScript types

What a TypeScript type is when its text is read. The grammar is the part of TypeScript's that translated
types use, with its precedence: brackets after a type bind tighter than the bar of a union, and the result
of a function goes as far to the right as a type can, over every bar.

```
type      := '(' [parameter (',' parameter)*] ')' '=>' type | union
parameter := word ':' type
union     := operand ('|' operand)*
operand   := primary ('[' ']')*
primary   := word ['<' type (',' type)* '>'] | '[' type (',' type)* ']' | '(' type ')'
```

Results:
* `lex_word`: a word is one token, and a blank is none.
* `Derives.cancel`: a part of the grammar that is followed by what can follow it ends at one place and has
  one structure.
* `Reads.unique`: no text has two structures.
* `not_reads_of_gap`: what has arguments is not applied to further ones.
-/
namespace TypeBridge

/-- The structure of a TypeScript type. -/
inductive TsType where
  | name (text : String)
  | application (name : String) (arguments : List TsType)
  | array (element : TsType)
  | tuple (elements : List TsType)
  | union (left right : TsType)
  | function (parameters : List (String × TsType)) (result : TsType)
  deriving Repr

/-- A token of a TypeScript type. -/
inductive TsToken where
  | word (text : String)
  | openParen
  | closeParen
  | openBracket
  | closeBracket
  | less
  | greater
  | comma
  | colon
  | bar
  | arrow
  deriving DecidableEq, Repr

namespace TsType

/-! ## Tokens -/

/-- Whether a character belongs to a word: a name, or several with dots between them. -/
def isWordChar (c : Char) : Bool :=
  c.isAlphanum || c == '_' || c == '.' || (128 ≤ c.toNat && !Text.isBlank c)

/-- A name, or several with dots between them. -/
def IsWord (text : String) : Prop := text.toList ≠ [] ∧ ∀ c ∈ text.toList, isWordChar c = true

instance (text : String) : Decidable (IsWord text) :=
  decidable_of_iff (text.toList ≠ [] ∧ text.toList.all isWordChar = true) (by simp [IsWord])

/-- The sign that a character is. -/
def mark? : Char → Option TsToken
  | '(' => some .openParen
  | ')' => some .closeParen
  | '[' => some .openBracket
  | ']' => some .closeBracket
  | '<' => some .less
  | '>' => some .greater
  | ',' => some .comma
  | ':' => some .colon
  | '|' => some .bar
  | _ => none

/-- Whether a text begins inside of a word. -/
def startsWord : List Char → Bool
  | [] => false
  | c :: _ => isWordChar c

/-- The tokens with one more character at the beginning of the word that comes first. -/
def extend (c : Char) : List TsToken → List TsToken
  | .word text :: ts => .word (.ofList (c :: text.toList)) :: ts
  | ts => .word (.ofList [c]) :: ts

/-- The tokens of a text, between which blanks may stand. -/
def lex : List Char → Option (List TsToken)
  | [] => some []
  | '=' :: '>' :: r => (lex r).map (.arrow :: ·)
  | c :: r =>
    if Text.isBlank c then lex r
    else if isWordChar c then
      (lex r).map fun ts => if startsWord r then extend c ts else .word (.ofList [c]) :: ts
    else
      match mark? c with
      | some mark => (lex r).map (mark :: ·)
      | none => none

theorem not_isBlank_of_isWordChar {c : Char} (h : isWordChar c = true) : Text.isBlank c = false := by
  simp only [isWordChar, Bool.or_eq_true, Bool.and_eq_true, Bool.not_eq_true', beq_iff_eq] at h
  rcases h with ((h | rfl) | rfl) | h
  · exact Text.not_isBlank_of_isAlphanum h
  · rfl
  · rfl
  · exact h.2

theorem lex_nil : lex [] = some [] := rfl

theorem lex_blank (r : List Char) : lex (' ' :: r) = lex r := rfl

theorem lex_arrow (r : List Char) : lex ('=' :: '>' :: r) = (lex r).map (.arrow :: ·) := rfl

theorem lex_mark {c : Char} {mark : TsToken} (h : mark? c = some mark) (r : List Char) :
    lex (c :: r) = (lex r).map (mark :: ·) := by
  unfold mark? at h
  split at h <;> first | (cases h; rfl) | cases h

/-- A word ends before what cannot belong to it. -/
theorem lex_word {word rest : List Char} (hne : word ≠ []) (hword : ∀ c ∈ word, isWordChar c = true)
    (hrest : startsWord rest = false) :
    lex (word ++ rest) = (lex rest).map (.word (.ofList word) :: ·) := by
  induction word with
  | nil => exact absurd rfl hne
  | cons c word ih =>
    have hc := hword c (by simp)
    have hstep : ∀ r, lex (c :: r) = (lex r).map fun ts =>
        if startsWord r then extend c ts else .word (.ofList [c]) :: ts := by
      intro r
      rw [lex.eq_def]
      split
      · rename_i heq; cases heq
      · rename_i heq
        cases heq
        exact absurd hc (by decide)
      · rename_i heq
        cases heq
        rw [not_isBlank_of_isWordChar hc, hc]
        rfl
    rw [List.cons_append, hstep]
    cases word with
    | nil => simp [hrest]
    | cons d word =>
      have hd : startsWord (d :: word ++ rest) = true := hword d (by simp)
      rw [ih (by simp) fun e he => hword e (List.mem_cons_of_mem _ he), Option.map_map]
      congr 1
      funext ts
      simp only [Function.comp, hd, if_true, extend, String.toList_ofList]

/-! ## Grammar -/

/-- A part of the grammar with its structure. Brackets and further alternatives make one type of
another. -/
inductive Phrase where
  | type (type : TsType)
  | union (type : TsType)
  | alternatives (first type : TsType)
  | operand (type : TsType)
  | brackets (element type : TsType)
  | primary (type : TsType)
  | types (types : List TsType)
  | parameters (parameters : List (String × TsType))

/-- The rules of the grammar. -/
inductive Derives : Phrase → List TsToken → Prop
  | action {result : TsType} {a : List TsToken} :
    Derives (.type result) a →
    Derives (.type (.function [] result)) (.openParen :: .closeParen :: .arrow :: a)
  | function {parameters : List (String × TsType)} {result : TsType} {a b : List TsToken} :
    Derives (.parameters parameters) a → Derives (.type result) b →
    Derives (.type (.function parameters result)) (.openParen :: (a ++ .closeParen :: .arrow :: b))
  | ofUnion {type : TsType} {a : List TsToken} : Derives (.union type) a → Derives (.type type) a
  | union {first type : TsType} {a b : List TsToken} :
    Derives (.operand first) a → Derives (.alternatives first type) b → Derives (.union type) (a ++ b)
  | noAlternative {type : TsType} : Derives (.alternatives type type) []
  | alternative {first next type : TsType} {a b : List TsToken} :
    Derives (.operand next) a → Derives (.alternatives (.union first next) type) b →
    Derives (.alternatives first type) (.bar :: (a ++ b))
  | operand {base type : TsType} {a b : List TsToken} :
    Derives (.primary base) a → Derives (.brackets base type) b → Derives (.operand type) (a ++ b)
  | noBrackets {type : TsType} : Derives (.brackets type type) []
  | brackets {element type : TsType} {a : List TsToken} :
    Derives (.brackets (.array element) type) a →
    Derives (.brackets element type) (.openBracket :: .closeBracket :: a)
  | name (text : String) : Derives (.primary (.name text)) [.word text]
  | application (name : String) {arguments : List TsType} {a : List TsToken} :
    Derives (.types arguments) a →
    Derives (.primary (.application name arguments)) (.word name :: .less :: (a ++ [.greater]))
  | tuple {elements : List TsType} {a : List TsToken} :
    Derives (.types elements) a →
    Derives (.primary (.tuple elements)) (.openBracket :: (a ++ [.closeBracket]))
  | parentheses {type : TsType} {a : List TsToken} :
    Derives (.type type) a → Derives (.primary type) (.openParen :: (a ++ [.closeParen]))
  | lastType {type : TsType} {a : List TsToken} : Derives (.type type) a → Derives (.types [type]) a
  | moreTypes {type : TsType} {types : List TsType} {a b : List TsToken} :
    Derives (.type type) a → Derives (.types types) b → Derives (.types (type :: types)) (a ++ .comma :: b)
  | lastParameter (name : String) {type : TsType} {a : List TsToken} :
    Derives (.type type) a → Derives (.parameters [(name, type)]) (.word name :: .colon :: a)
  | moreParameters (name : String) {type : TsType} {parameters : List (String × TsType)}
      {a b : List TsToken} :
    Derives (.type type) a → Derives (.parameters parameters) b →
    Derives (.parameters ((name, type) :: parameters)) (.word name :: .colon :: (a ++ .comma :: b))

/-- The text has the structure. -/
def Reads (text : String) (type : TsType) : Prop :=
  ∃ ts, lex text.toList = some ts ∧ Derives (.type type) ts

/-! ## No text has two structures -/

/-- Nothing follows, or one of these tokens does. -/
def Before (follow : List TsToken) (rest : List TsToken) : Prop := ∀ t ∈ rest.head?, t ∈ follow

/-- What can stand after a list in brackets. -/
def listEnds : List TsToken := [.closeParen, .closeBracket, .greater]

/-- What can stand after a type. -/
def typeEnds : List TsToken := .comma :: listEnds

/-- What can stand after an operand. -/
def operandEnds : List TsToken := .bar :: typeEnds

/-- What can stand after a primary type. -/
def primaryEnds : List TsToken := .openBracket :: operandEnds

theorem Before.mono {follow follow' : List TsToken} {rest : List TsToken} (h : Before follow rest)
    (hsub : ∀ t ∈ follow, t ∈ follow') : Before follow' rest :=
  fun t ht => hsub t (h t ht)

theorem before_cons {follow : List TsToken} {t : TsToken} {rest : List TsToken} :
    Before follow (t :: rest) ↔ t ∈ follow := by
  simp [Before]

theorem Derives.brackets_before {element type : TsType} {a rest : List TsToken}
    (h : Derives (.brackets element type) a) (hrest : Before operandEnds rest) :
    Before primaryEnds (a ++ rest) := by
  cases h with
  | noBrackets => exact hrest.mono fun t => List.mem_cons_of_mem _
  | brackets _ => exact before_cons.2 (by simp [primaryEnds])

theorem Derives.alternatives_before {first type : TsType} {a rest : List TsToken}
    (h : Derives (.alternatives first type) a) (hrest : Before typeEnds rest) :
    Before operandEnds (a ++ rest) := by
  cases h with
  | noAlternative => exact hrest.mono fun t => List.mem_cons_of_mem _
  | alternative _ _ => exact before_cons.2 (by simp [operandEnds])

/-- Neither a parenthesis that closes nor a name with a colon begins a type, so that what follows a
parenthesis that opens tells a function from a type in parentheses. -/
theorem Derives.not_parameters {type : TsType} {a rest : List TsToken} (h : Derives (.type type) a)
    (hrest : Before typeEnds rest) :
    (a ++ rest).head? ≠ some .closeParen ∧ ∀ name r, a ++ rest ≠ .word name :: .colon :: r := by
  cases h with
  | action _ => simp
  | function _ _ => simp
  | ofUnion h =>
    cases h with
    | union ho ha =>
      cases ho with
      | operand hp hb =>
        have hafter := hb.brackets_before (ha.alternatives_before hrest)
        rw [List.append_assoc, List.append_assoc]
        cases hp with
        | name text =>
          refine ⟨by simp, fun name r heq => ?_⟩
          simp only [List.singleton_append, List.cons.injEq] at heq
          rw [heq.2, before_cons] at hafter
          simp [primaryEnds, operandEnds, typeEnds, listEnds] at hafter
        | application name _ => simp
        | tuple _ => simp
        | parentheses _ => simp

theorem Derives.parameters_eq {parameters : List (String × TsType)} {a : List TsToken}
    (h : Derives (.parameters parameters) a) : ∃ name r, a = .word name :: .colon :: r := by
  cases h with
  | lastParameter name _ => exact ⟨name, _, rfl⟩
  | moreParameters name _ _ => exact ⟨name, _, rfl⟩

/-- What opens a union with a parenthesis is no function. -/
theorem Derives.union_not_function {type : TsType} {a rest r : List TsToken} (h : Derives (.union type) a)
    (heq : a ++ rest = .openParen :: r) :
    r.head? ≠ some .closeParen ∧ ∀ name r', r ≠ .word name :: .colon :: r' := by
  cases h with
  | union ho ha =>
    cases ho with
    | operand hp hb =>
      cases hp with
      | name text => simp at heq
      | application name _ => simp at heq
      | tuple _ => simp at heq
      | parentheses h =>
        simp only [List.cons_append, List.append_assoc, List.cons.injEq, true_and] at heq
        rw [← heq]
        exact h.not_parameters (before_cons.2 (by simp [typeEnds, listEnds]))

/-- At the beginning of a list of tokens something is read in one way only, as long as one of the given
tokens follows. -/
def CancelsBefore {α : Type} (follow : List TsToken) (D : α → List TsToken → Prop) (x : α)
    (a : List TsToken) : Prop :=
  ∀ x' a' r r', D x' a' → Before follow r → Before follow r' → a ++ r = a' ++ r' → x = x' ∧ r = r'

/-- What it means for a phrase, with what can follow it. -/
def Cancels (a : List TsToken) : Phrase → Prop
  | .type type => CancelsBefore typeEnds (fun t => Derives (.type t)) type a
  | .union type => CancelsBefore typeEnds (fun t => Derives (.union t)) type a
  | .alternatives first type => CancelsBefore typeEnds (fun t => Derives (.alternatives first t)) type a
  | .operand type => CancelsBefore operandEnds (fun t => Derives (.operand t)) type a
  | .brackets element type => CancelsBefore operandEnds (fun t => Derives (.brackets element t)) type a
  | .primary type => CancelsBefore primaryEnds (fun t => Derives (.primary t)) type a
  | .types types => CancelsBefore listEnds (fun ts => Derives (.types ts)) types a
  | .parameters parameters => CancelsBefore listEnds (fun ps => Derives (.parameters ps)) parameters a

/-- A token that can follow ends both readings at one place. -/
theorem CancelsBefore.closed {α : Type} {follow : List TsToken} {D : α → List TsToken → Prop} {x x' : α}
    {a a' r r' : List TsToken} {t : TsToken} (h : CancelsBefore follow D x a) (h' : D x' a')
    (ht : t ∈ follow) (heq : a ++ t :: r = a' ++ t :: r') : x = x' ∧ r = r' := by
  obtain ⟨rfl, heq⟩ := h x' a' _ _ h' (before_cons.2 ht) (before_cons.2 ht) heq
  exact ⟨rfl, (List.cons.inj heq).2⟩

theorem before_typeEnds_of_listEnds {rest : List TsToken} (h : Before listEnds rest) : Before typeEnds rest :=
  h.mono fun _ => List.mem_cons_of_mem _

theorem comma_mem_typeEnds : .comma ∈ typeEnds := List.mem_cons_self

/-- Where a list ends, no comma follows. -/
theorem CancelsBefore.not_comma {type type' : TsType} {a a' r r' : List TsToken}
    (h : CancelsBefore typeEnds (fun t => Derives (.type t)) type a) (h' : Derives (.type type') a')
    (hr : Before listEnds r) : a ++ r ≠ a' ++ .comma :: r' := by
  intro heq
  obtain ⟨-, rfl⟩ :=
    h type' a' _ _ h' (before_typeEnds_of_listEnds hr) (before_cons.2 comma_mem_typeEnds) heq
  simp [Before, listEnds] at hr

theorem CancelsBefore.comma_not {type type' : TsType} {a a' r r' : List TsToken}
    (h : CancelsBefore typeEnds (fun t => Derives (.type t)) type a) (h' : Derives (.type type') a')
    (hr' : Before listEnds r') : a ++ .comma :: r ≠ a' ++ r' := by
  intro heq
  obtain ⟨-, rfl⟩ :=
    h type' a' _ _ h' (before_cons.2 comma_mem_typeEnds) (before_typeEnds_of_listEnds hr') heq
  simp [Before, listEnds] at hr'

theorem not_before_bar (r : List TsToken) : ¬ Before typeEnds (.bar :: r) := by
  simp [Before, typeEnds, listEnds]

theorem not_before_openBracket (r : List TsToken) : ¬ Before operandEnds (.openBracket :: r) := by
  simp [Before, operandEnds, typeEnds, listEnds]

theorem not_before_less (r : List TsToken) : ¬ Before primaryEnds (.less :: r) := by
  simp [Before, primaryEnds, operandEnds, typeEnds, listEnds]

/-! ### The rules

Each rule makes a phrase that is read in one way only of parts that are. -/

section
variable {type first element result : TsType} {a b : List TsToken}

theorem Cancels.action (ih : Cancels a (.type result)) :
    Cancels (.openParen :: .closeParen :: .arrow :: a) (.type (.function [] result)) := by
  intro type' a' r r' h' hr hr' heq
  cases h' with
  | action h' =>
    simp only [List.cons_append, List.cons.injEq, true_and] at heq
    obtain ⟨rfl, rfl⟩ := ih _ _ _ _ h' hr hr' heq
    exact ⟨rfl, rfl⟩
  | function hps _ =>
    obtain ⟨name, r, rfl⟩ := hps.parameters_eq
    simp at heq
  | ofUnion h' => exact absurd rfl (h'.union_not_function heq.symm).1

theorem Cancels.function {parameters : List (String × TsType)} (hps : Derives (.parameters parameters) a)
    (ihps : Cancels a (.parameters parameters)) (ih : Cancels b (.type result)) :
    Cancels (.openParen :: (a ++ .closeParen :: .arrow :: b)) (.type (.function parameters result)) := by
  intro type' a' r r' h' hr hr' heq
  cases h' with
  | action h' =>
    obtain ⟨name, r, rfl⟩ := hps.parameters_eq
    simp at heq
  | function hps' h' =>
    simp only [List.cons_append, List.append_assoc, List.cons.injEq, true_and] at heq
    obtain ⟨rfl, heq⟩ := ihps.closed hps' (by simp [listEnds]) heq
    simp only [List.cons.injEq, true_and] at heq
    obtain ⟨rfl, rfl⟩ := ih _ _ _ _ h' hr hr' heq
    exact ⟨rfl, rfl⟩
  | ofUnion h' =>
    obtain ⟨name, x, rfl⟩ := hps.parameters_eq
    exact absurd rfl ((h'.union_not_function heq.symm).2 name _)

theorem Cancels.ofUnion (h : Derives (.union type) a) (ih : Cancels a (.union type)) : Cancels a (.type type) := by
  intro type' a' r r' h' hr hr' heq
  cases h' with
  | action _ => exact absurd rfl (h.union_not_function heq).1
  | function hps _ =>
    obtain ⟨name, x, rfl⟩ := hps.parameters_eq
    exact absurd rfl ((h.union_not_function heq).2 name _)
  | ofUnion h' => exact ih _ _ _ _ h' hr hr' heq

theorem Cancels.union (ha : Derives (.alternatives first type) b) (iho : Cancels a (.operand first))
    (iha : Cancels b (.alternatives first type)) : Cancels (a ++ b) (.union type) := by
  intro type' a' r r' h' hr hr' heq
  cases h' with
  | union ho' ha' =>
    rw [List.append_assoc, List.append_assoc] at heq
    obtain ⟨rfl, heq⟩ := iho _ _ _ _ ho' (ha.alternatives_before hr) (ha'.alternatives_before hr') heq
    exact iha _ _ _ _ ha' hr hr' heq

theorem Cancels.noAlternative : Cancels [] (.alternatives type type) := by
  intro type' a' r r' h' hr hr' heq
  cases h' with
  | noAlternative => exact ⟨rfl, heq⟩
  | alternative _ _ =>
    rw [List.nil_append] at heq
    exact absurd (heq ▸ hr) (not_before_bar _)

theorem Cancels.alternative {next : TsType} (ha : Derives (.alternatives (.union first next) type) b)
    (iho : Cancels a (.operand next)) (iha : Cancels b (.alternatives (.union first next) type)) :
    Cancels (.bar :: (a ++ b)) (.alternatives first type) := by
  intro type' a' r r' h' hr hr' heq
  cases h' with
  | noAlternative =>
    rw [List.nil_append] at heq
    exact absurd (heq ▸ hr') (not_before_bar _)
  | alternative ho' ha' =>
    simp only [List.cons_append, List.append_assoc, List.cons.injEq, true_and] at heq
    obtain ⟨rfl, heq⟩ := iho _ _ _ _ ho' (ha.alternatives_before hr) (ha'.alternatives_before hr') heq
    exact iha _ _ _ _ ha' hr hr' heq

theorem Cancels.operand (hb : Derives (.brackets element type) b) (ihp : Cancels a (.primary element))
    (ihb : Cancels b (.brackets element type)) : Cancels (a ++ b) (.operand type) := by
  intro type' a' r r' h' hr hr' heq
  cases h' with
  | operand hp' hb' =>
    rw [List.append_assoc, List.append_assoc] at heq
    obtain ⟨rfl, heq⟩ := ihp _ _ _ _ hp' (hb.brackets_before hr) (hb'.brackets_before hr') heq
    exact ihb _ _ _ _ hb' hr hr' heq

theorem Cancels.noBrackets : Cancels [] (.brackets type type) := by
  intro type' a' r r' h' hr hr' heq
  cases h' with
  | noBrackets => exact ⟨rfl, heq⟩
  | brackets _ =>
    rw [List.nil_append] at heq
    exact absurd (heq ▸ hr) (not_before_openBracket _)

theorem Cancels.brackets (ih : Cancels a (.brackets (.array element) type)) :
    Cancels (.openBracket :: .closeBracket :: a) (.brackets element type) := by
  intro type' a' r r' h' hr hr' heq
  cases h' with
  | noBrackets =>
    rw [List.nil_append] at heq
    exact absurd (heq ▸ hr') (not_before_openBracket _)
  | brackets h' =>
    simp only [List.cons_append, List.cons.injEq, true_and] at heq
    exact ih _ _ _ _ h' hr hr' heq

theorem Cancels.name (text : String) : Cancels [.word text] (.primary (.name text)) := by
  intro type' a' r r' h' hr hr' heq
  cases h' with
  | name text' =>
    simp only [List.singleton_append, List.cons.injEq, TsToken.word.injEq] at heq
    obtain ⟨rfl, rfl⟩ := heq
    exact ⟨rfl, rfl⟩
  | application name _ =>
    simp only [List.cons_append, List.nil_append, List.cons.injEq] at heq
    exact absurd (heq.2 ▸ hr) (not_before_less _)
  | tuple _ => simp at heq
  | parentheses _ => simp at heq

theorem Cancels.application (name : String) {arguments : List TsType} (ih : Cancels a (.types arguments)) :
    Cancels (.word name :: .less :: (a ++ [.greater])) (.primary (.application name arguments)) := by
  intro type' a' r r' h' hr hr' heq
  cases h' with
  | name text =>
    simp only [List.cons_append, List.nil_append, List.cons.injEq] at heq
    exact absurd (heq.2 ▸ hr') (not_before_less _)
  | application name' h' =>
    simp only [List.cons_append, List.append_assoc, List.nil_append, List.cons.injEq, TsToken.word.injEq,
      true_and] at heq
    obtain ⟨rfl, heq⟩ := heq
    obtain ⟨rfl, rfl⟩ := ih.closed h' (by simp [listEnds]) heq
    exact ⟨rfl, rfl⟩
  | tuple _ => simp at heq
  | parentheses _ => simp at heq

theorem Cancels.tuple {elements : List TsType} (ih : Cancels a (.types elements)) :
    Cancels (.openBracket :: (a ++ [.closeBracket])) (.primary (.tuple elements)) := by
  intro type' a' r r' h' hr hr' heq
  cases h' with
  | name text => simp at heq
  | application name _ => simp at heq
  | tuple h' =>
    simp only [List.cons_append, List.append_assoc, List.nil_append, List.cons.injEq, true_and] at heq
    obtain ⟨rfl, rfl⟩ := ih.closed h' (by simp [listEnds]) heq
    exact ⟨rfl, rfl⟩
  | parentheses _ => simp at heq

theorem Cancels.parentheses (ih : Cancels a (.type type)) :
    Cancels (.openParen :: (a ++ [.closeParen])) (.primary type) := by
  intro type' a' r r' h' hr hr' heq
  cases h' with
  | name text => simp at heq
  | application name _ => simp at heq
  | tuple _ => simp at heq
  | parentheses h' =>
    simp only [List.cons_append, List.append_assoc, List.nil_append, List.cons.injEq, true_and] at heq
    exact ih.closed h' (by simp [typeEnds, listEnds]) heq

theorem Cancels.lastType (ih : Cancels a (.type type)) : Cancels a (.types [type]) := by
  intro types' a' r r' h' hr hr' heq
  cases h' with
  | lastType h' =>
    obtain ⟨rfl, rfl⟩ := ih _ _ _ _ h' (before_typeEnds_of_listEnds hr) (before_typeEnds_of_listEnds hr') heq
    exact ⟨rfl, rfl⟩
  | moreTypes h' _ =>
    rw [List.append_assoc, List.cons_append] at heq
    exact absurd heq (ih.not_comma h' hr)

theorem Cancels.moreTypes {types : List TsType} (ih : Cancels a (.type type)) (ihs : Cancels b (.types types)) :
    Cancels (a ++ .comma :: b) (.types (type :: types)) := by
  intro types' a' r r' h' hr hr' heq
  rw [List.append_assoc, List.cons_append] at heq
  cases h' with
  | lastType h' => exact absurd heq (ih.comma_not h' hr')
  | moreTypes h' hs' =>
    rw [List.append_assoc, List.cons_append] at heq
    obtain ⟨rfl, heq⟩ := ih.closed h' comma_mem_typeEnds heq
    obtain ⟨rfl, rfl⟩ := ihs _ _ _ _ hs' hr hr' heq
    exact ⟨rfl, rfl⟩

theorem Cancels.lastParameter (name : String) (ih : Cancels a (.type type)) :
    Cancels (.word name :: .colon :: a) (.parameters [(name, type)]) := by
  intro parameters' a' r r' h' hr hr' heq
  cases h' with
  | lastParameter name' h' =>
    simp only [List.cons_append, List.cons.injEq, TsToken.word.injEq, true_and] at heq
    obtain ⟨rfl, heq⟩ := heq
    obtain ⟨rfl, rfl⟩ := ih _ _ _ _ h' (before_typeEnds_of_listEnds hr) (before_typeEnds_of_listEnds hr') heq
    exact ⟨rfl, rfl⟩
  | moreParameters name' h' _ =>
    simp only [List.cons_append, List.append_assoc, List.cons.injEq, TsToken.word.injEq, true_and] at heq
    exact absurd heq.2 (ih.not_comma h' hr)

theorem Cancels.moreParameters (name : String) {parameters : List (String × TsType)} (ih : Cancels a (.type type))
    (ihs : Cancels b (.parameters parameters)) :
    Cancels (.word name :: .colon :: (a ++ .comma :: b)) (.parameters ((name, type) :: parameters)) := by
  intro parameters' a' r r' h' hr hr' heq
  cases h' with
  | lastParameter name' h' =>
    simp only [List.cons_append, List.append_assoc, List.cons.injEq, TsToken.word.injEq, true_and] at heq
    exact absurd heq.2 (ih.comma_not h' hr')
  | moreParameters name' h' hs' =>
    simp only [List.cons_append, List.append_assoc, List.cons.injEq, TsToken.word.injEq, true_and] at heq
    obtain ⟨rfl, heq⟩ := heq
    obtain ⟨rfl, heq⟩ := ih.closed h' comma_mem_typeEnds heq
    obtain ⟨rfl, rfl⟩ := ihs _ _ _ _ hs' hr hr' heq
    exact ⟨rfl, rfl⟩

end

/-- A phrase is read in one way only, as long as what follows cannot belong to it. -/
theorem Derives.cancel {phrase : Phrase} {a : List TsToken} (h : Derives phrase a) : Cancels a phrase := by
  induction h with
  | action _ ih => exact ih.action
  | function hps _ ihps ih => exact ihps.function hps ih
  | ofUnion h ih => exact ih.ofUnion h
  | union _ ha iho iha => exact iho.union ha iha
  | noAlternative => exact .noAlternative
  | alternative _ ha iho iha => exact iho.alternative ha iha
  | operand _ hb ihp ihb => exact ihp.operand hb ihb
  | noBrackets => exact .noBrackets
  | brackets _ ih => exact ih.brackets
  | name text => exact .name text
  | application name _ ih => exact ih.application name
  | tuple _ ih => exact ih.tuple
  | parentheses _ ih => exact ih.parentheses
  | lastType _ ih => exact ih.lastType
  | moreTypes _ _ ih ihs => exact ih.moreTypes ihs
  | lastParameter name _ ih => exact ih.lastParameter name
  | moreParameters name _ _ ih ihs => exact ih.moreParameters name ihs

theorem Derives.unique {type type' : TsType} {a : List TsToken} (h : Derives (.type type) a)
    (h' : Derives (.type type') a) : type = type' :=
  (h.cancel type' a [] [] h' (by simp [Before]) (by simp [Before]) rfl).1

/-- No text has two structures. -/
theorem Reads.unique {text : String} {type type' : TsType} (h : Reads text type) (h' : Reads text type') :
    type = type' := by
  obtain ⟨ts, hts, h⟩ := h
  obtain ⟨ts', hts', h'⟩ := h'
  rw [hts] at hts'
  cases hts'
  exact h.unique h'

/-! ## What no text of a type contains -/

/-- No angle bracket opens first, or right after one that closes. -/
def Gapless (ts : List TsToken) : Prop :=
  ts.IsChain (fun t u => t = .greater → u ≠ .less) ∧ ts.head? ≠ some .less

theorem Gapless.cons {t : TsToken} {a : List TsToken} (ha : Gapless a) (ht : t ≠ .less) :
    Gapless (t :: a) := by
  refine ⟨ha.1.cons fun u hu _ => ?_, by simpa using ht⟩
  rintro rfl
  exact ha.2 hu

theorem Gapless.append {a b : List TsToken} (ha : Gapless a) (hb : Gapless b) : Gapless (a ++ b) := by
  refine ⟨ha.1.append hb.1 fun t _ u hu _ => ?_, ?_⟩
  · rintro rfl
    exact hb.2 hu
  · cases a with
    | nil => exact hb.2
    | cons t a => exact ha.2

theorem gapless_nil : Gapless [] := ⟨.nil, by simp⟩

theorem Derives.gapless {phrase : Phrase} {a : List TsToken} (h : Derives phrase a) : Gapless a := by
  induction h with
  | action _ ih => exact ((ih.cons (by simp)).cons (by simp)).cons (by simp)
  | function _ _ ihps ih => exact (ihps.append ((ih.cons (by simp)).cons (by simp))).cons (by simp)
  | ofUnion _ ih => exact ih
  | union _ _ iho iha => exact iho.append iha
  | noAlternative => exact gapless_nil
  | alternative _ _ iho iha => exact (iho.append iha).cons (by simp)
  | operand _ _ ihp ihb => exact ihp.append ihb
  | noBrackets => exact gapless_nil
  | brackets _ ih => exact (ih.cons (by simp)).cons (by simp)
  | name text => exact gapless_nil.cons (by simp)
  | application name _ ih =>
    -- the bracket that opens follows a word
    have hgreater : Gapless [.greater] := gapless_nil.cons (by simp)
    have hinner := ih.append hgreater
    exact ⟨(hinner.1.cons (by simp)).cons (by simp), by simp⟩
  | tuple _ ih => exact (ih.append (gapless_nil.cons (by simp))).cons (by simp)
  | parentheses _ ih => exact (ih.append (gapless_nil.cons (by simp))).cons (by simp)
  | lastType _ ih => exact ih
  | moreTypes _ _ ih ihs => exact ih.append (ihs.cons (by simp))
  | lastParameter name _ ih => exact (ih.cons (by simp)).cons (by simp)
  | moreParameters name _ _ ih ihs => exact ((ih.append (ihs.cons (by simp))).cons (by simp)).cons (by simp)

/-- An angle bracket opens right after one that closes. -/
def HasGap (ts : List TsToken) : Prop := ∃ u v, ts = u ++ .greater :: .less :: v

theorem HasGap.cons (t : TsToken) {ts : List TsToken} (h : HasGap ts) : HasGap (t :: ts) := by
  obtain ⟨u, v, rfl⟩ := h
  exact ⟨t :: u, v, rfl⟩

theorem hasGap_extend {c : Char} {ts : List TsToken} (h : HasGap ts) :
    HasGap (extend c ts) := by
  unfold extend
  split
  · rename_i text ts
    obtain ⟨u, v, huv⟩ := h
    cases u with
    | nil => simp at huv
    | cons t u =>
      simp only [List.cons_append, List.cons.injEq] at huv
      exact ⟨.word (.ofList (c :: text.toList)) :: u, v, by rw [huv.2]; rfl⟩
  · exact h.cons _

theorem hasGap_of_lex {c : Char} (hc : isWordChar c = true) {a b : List Char} {ts : List TsToken}
    (h : lex (a ++ c :: '>' :: '<' :: b) = some ts) : HasGap ts := by
  generalize hs : a ++ c :: '>' :: '<' :: b = s at h
  fun_induction lex s generalizing a ts with
  | case1 => simp at hs
  | case2 r ih =>
    obtain ⟨ts', hts, rfl⟩ := Option.map_eq_some_iff.1 h
    cases a with
    | nil =>
      simp only [List.nil_append, List.cons.injEq] at hs
      obtain ⟨rfl, -⟩ := hs
      exact absurd hc (by decide)
    | cons d a =>
      cases a with
      | nil => simp at hs; obtain ⟨-, rfl, -⟩ := hs; exact absurd hc (by decide)
      | cons e a =>
        simp only [List.cons_append, List.cons.injEq] at hs
        exact (ih hs.2.2 hts).cons _
  | case3 d r _ hblank ih =>
    cases a with
    | nil =>
      simp only [List.nil_append, List.cons.injEq] at hs
      obtain ⟨rfl, -⟩ := hs
      rw [not_isBlank_of_isWordChar hc] at hblank
      cases hblank
    | cons e a =>
      simp only [List.cons_append, List.cons.injEq] at hs
      exact ih hs.2 h
  | case4 d r _ _ hd ih =>
    obtain ⟨ts', hts, rfl⟩ := Option.map_eq_some_iff.1 h
    cases a with
    | nil =>
      simp only [List.nil_append, List.cons.injEq] at hs
      obtain ⟨rfl, rfl⟩ := hs
      have hgreater : lex ('>' :: '<' :: b) = (lex ('<' :: b)).map (.greater :: ·) := lex_mark rfl _
      have hless : lex ('<' :: b) = (lex b).map (.less :: ·) := lex_mark rfl _
      rw [hgreater, hless] at hts
      obtain ⟨ts₁, hts₁, rfl⟩ := Option.map_eq_some_iff.1 hts
      obtain ⟨ts₂, hts₂, rfl⟩ := Option.map_eq_some_iff.1 hts₁
      exact ⟨[.word (.ofList [c])], ts₂, rfl⟩
    | cons e a =>
      simp only [List.cons_append, List.cons.injEq] at hs
      have hin := ih hs.2 hts
      split
      · exact hasGap_extend hin
      · exact hin.cons _
  | case5 d r _ hblank hd mark hmark ih =>
    obtain ⟨ts', hts, rfl⟩ := Option.map_eq_some_iff.1 h
    cases a with
    | nil =>
      simp only [List.nil_append, List.cons.injEq] at hs
      obtain ⟨rfl, -⟩ := hs
      exact absurd hc hd
    | cons e a =>
      simp only [List.cons_append, List.cons.injEq] at hs
      exact (ih hs.2 hts).cons _
  | case6 => cases h

/-- A name with arguments is not applied to further ones. -/
theorem not_reads_of_gap {text : String} {c : Char} (hc : isWordChar c = true) {a b : List Char}
    (htext : text.toList = a ++ c :: '>' :: '<' :: b) (type : TsType) : ¬ Reads text type := by
  rintro ⟨ts, hts, hd⟩
  rw [htext] at hts
  obtain ⟨u, v, rfl⟩ := hasGap_of_lex hc hts
  have hchain := (List.isChain_append.1 hd.gapless.1).2.1
  simp at hchain

end TsType

end TypeBridge
