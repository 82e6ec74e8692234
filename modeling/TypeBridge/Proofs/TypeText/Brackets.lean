import TypeBridge.Proofs.TypeText.Printing

/-!
# Brackets of translated types

The brackets of a text match when each one that is closed is the one that was opened last, and all are closed in
the end. An arrow is one sign, so that its point closes nothing. Texts of translated types are put together in a
way that keeps brackets matching: of characters that count for nothing, bars, arrows, and other such texts, one
after the other or in brackets.

Results:
* `bracketed_print`: the text of a structure is put together so, and has a bar or an arrow outside of all brackets
  when the structure is a union or a function.
* `Bracketed.awaited_append`: such a text closes what it opens, in whatever brackets it stands.
* `Bracketed.matched`: the brackets of such a text match.
-/
namespace TypeBridge.TsType

open TypeText (isOpening isClosing)

/-! ## Matching brackets -/

/-- The bracket that closes what a character opens. -/
def closing? : Char → Option Char
  | '(' => some ')'
  | '<' => some '>'
  | '[' => some ']'
  | '\x7b' => some '\x7d'
  | _ => none

/-- The closing brackets that are awaited after a text, the innermost first, when the given ones are awaited
before it. There are as many as the text is deep at its end, and none at all when a bracket is closed that is not
the one awaited first. -/
def awaited : List Char → List Char → Option (List Char)
  | closers, [] => some closers
  | closers, '=' :: '>' :: r => awaited closers r
  | closers, c :: r =>
    match closing? c with
    | some close => awaited (close :: closers) r
    | none =>
      if isClosing c then
        match closers with
        | [] => none
        | close :: closers => if c = close then awaited closers r else none
      else awaited closers r

/-- Whether the brackets of a text match. -/
def Matched (text : String) : Prop := awaited [] text.toList = some []

theorem awaited_cons {c : Char} (hc : c ≠ '=') (closers r : List Char) :
    awaited closers (c :: r) =
      match closing? c with
      | some close => awaited (close :: closers) r
      | none =>
        if isClosing c then
          match closers with
          | [] => none
          | close :: closers => if c = close then awaited closers r else none
        else awaited closers r := by
  conv => lhs; unfold awaited
  split
  · rename_i heq; cases heq
  · rename_i heq; cases heq; exact absurd rfl hc
  · rename_i heq; cases heq; rfl

/-- What opens and what closes a bracket. -/
theorem closing?_spec {c close : Char} (h : closing? c = some close) :
    isOpening c = true ∧ isClosing close = true ∧ closing? close = none ∧ c ≠ '=' ∧ close ≠ '=' := by
  unfold closing? at h
  split at h <;> cases h <;> decide

theorem awaited_opening {c close : Char} (h : closing? c = some close) (closers r : List Char) :
    awaited closers (c :: r) = awaited (close :: closers) r := by
  rw [awaited_cons (closing?_spec h).2.2.2.1, h]

theorem awaited_closing {c close : Char} (h : closing? c = some close) (closers r : List Char) :
    awaited (close :: closers) (close :: r) = awaited closers r := by
  obtain ⟨-, hclosing, hnone, -, hne⟩ := closing?_spec h
  rw [awaited_cons hne, hnone]
  simp only [hclosing, if_true]

/-! ## Texts that are put together with matching brackets -/

/-- What stands in front of arguments in translated types: a word, or the type of a result that arrives
later and has no value. -/
def IsHead (text : String) : Prop := IsWord text ∨ text = "Promise<void>"

/-- Whether a character counts neither as a bracket nor as an operator. -/
def isPlain (c : Char) : Bool :=
  !TypeText.isOpening c && !TypeText.isClosing c && c != '|' && c != '='

theorem isPlain_of_isWordChar {c : Char} (h : isWordChar c = true) : isPlain c = true := by
  simp only [isPlain, TypeText.isOpening, TypeText.isClosing, Bool.and_eq_true, Bool.not_eq_true',
    Bool.or_eq_false_iff, beq_eq_false_iff_ne, bne_iff_ne]
  refine ⟨⟨⟨⟨⟨⟨?_, ?_⟩, ?_⟩, ?_⟩, ⟨⟨?_, ?_⟩, ?_⟩, ?_⟩, ?_⟩, ?_⟩ <;>
    rintro rfl <;> exact absurd h (by decide)

/-- Texts that are put together with matching brackets, and whether an operator stands outside of them all. -/
inductive Bracketed : List Char → Bool → Prop
  | plain {text : List Char} : text.all isPlain = true → Bracketed text false
  | bar : Bracketed ['|'] true
  | arrow : Bracketed ['=', '>'] true
  | append {text text' : List Char} {operator operator' : Bool} :
    Bracketed text operator → Bracketed text' operator' → Bracketed (text ++ text') (operator || operator')
  | bracket {text : List Char} {operator : Bool} {c close : Char} :
    Bracketed text operator → closing? c = some close → Bracketed (c :: (text ++ [close])) false

theorem awaited_plain {text : List Char} (h : text.all isPlain = true) (closers rest : List Char) :
    awaited closers (text ++ rest) = awaited closers rest := by
  induction text with
  | nil => rfl
  | cons c text ih =>
    rw [List.all_cons, Bool.and_eq_true] at h
    obtain ⟨hc, htext⟩ := h
    simp only [isPlain, Bool.and_eq_true, Bool.not_eq_true', bne_iff_ne] at hc
    obtain ⟨⟨⟨hopening, hclosing⟩, -⟩, hne⟩ := hc
    have hnone : closing? c = none := by
      cases hsome : closing? c with
      | none => rfl
      | some close => exact absurd (closing?_spec hsome).1 (by simp [hopening])
    rw [List.cons_append, awaited_cons hne, hnone]
    simp only
    rw [if_neg (by simp [hclosing]), ih htext]

/-- A text that is put together with matching brackets closes what it opens, and nothing else. -/
theorem Bracketed.awaited_append {text : List Char} {operator : Bool} (h : Bracketed text operator)
    (closers rest : List Char) : awaited closers (text ++ rest) = awaited closers rest := by
  induction h generalizing closers rest with
  | plain hplain => exact awaited_plain hplain closers rest
  | bar => rfl
  | arrow => rfl
  | append _ _ ih ih' => rw [List.append_assoc, ih, ih']
  | @bracket text _ c close _ hclose ih =>
    rw [List.cons_append, awaited_opening hclose, List.append_assoc, ih, List.singleton_append,
      awaited_closing hclose]

theorem Bracketed.matched {text : String} {operator : Bool} (h : Bracketed text.toList operator) :
    Matched text := by
  have hend := h.awaited_append [] []
  rw [List.append_nil] at hend
  exact hend

/-! ## Texts of structures -/

theorem bracketed_separated {texts : List (List Char)} (h : ∀ text ∈ texts, ∃ o, Bracketed text o) :
    ∃ o, Bracketed (separated texts) o := by
  induction texts with
  | nil => exact ⟨false, .plain rfl⟩
  | cons text texts ih =>
    obtain ⟨o, ho⟩ := h text (by simp)
    cases texts with
    | nil => exact ⟨o, by rwa [separated_singleton]⟩
    | cons text' texts =>
      obtain ⟨o', ho'⟩ := ih fun t ht => h t (List.mem_cons_of_mem _ ht)
      have hcomma : Bracketed [',', ' '] false := .plain (by decide)
      rw [separated_cons_cons]
      exact ⟨_, ho.append (hcomma.append ho')⟩

theorem IsWord.bracketed {text : String} (h : IsWord text) : Bracketed text.toList false :=
  .plain (List.all_eq_true.2 fun c hc => isPlain_of_isWordChar (h.2 c hc))

theorem IsHead.bracketed {text : String} (h : IsHead text) : Bracketed text.toList false := by
  rcases h with h | rfl
  · exact h.bracketed
  · have hargument : Bracketed ['v', 'o', 'i', 'd'] false := .plain (by decide)
    have hname : Bracketed ['P', 'r', 'o', 'm', 'i', 's', 'e'] false := .plain (by decide)
    have hbracket : Bracketed ['<', 'v', 'o', 'i', 'd', '>'] false := hargument.bracket rfl
    exact hname.append hbracket

theorem Bracketed.parenthesizeIf {text : List Char} {o : Bool} (h : Bracketed text o) (condition : Bool) :
    Bracketed (TsType.parenthesizeIf condition text) (!condition && o) := by
  cases condition with
  | false => exact h
  | true => exact h.bracket rfl

theorem bracketed_printAll {types : List TsType} (h : ∀ t ∈ types, Bracketed t.print t.isOperator) :
    ∃ o, Bracketed (separated (printAll types)) o := by
  apply bracketed_separated
  rw [printAll_eq_map]
  intro text htext
  obtain ⟨t, ht, rfl⟩ := List.mem_map.1 htext
  exact ⟨_, h t ht⟩

theorem bracketed_printParameters {parameters : List (String × TsType)}
    (hlabels : ∀ p ∈ parameters, IsWord p.1)
    (h : ∀ p ∈ parameters, Bracketed p.2.print p.2.isOperator) :
    ∃ o, Bracketed (separated (printParameters parameters)) o := by
  apply bracketed_separated
  rw [printParameters_eq_map]
  intro text htext
  obtain ⟨p, hp, rfl⟩ := List.mem_map.1 htext
  have hcolon : Bracketed [':', ' '] false := .plain (by decide)
  exact ⟨_, (hlabels p hp).bracketed.append (hcolon.append (h p hp))⟩

/-- The text of a structure is put together with matching brackets, and an operator stands outside of them just
when the structure is a union or a function. -/
theorem bracketed_print {t : TsType} (h : t.WellFormed IsHead) : Bracketed t.print t.isOperator := by
  have hblank : Bracketed [' '] false := .plain (by decide)
  induction h with
  | name htext => exact htext.bracketed
  | application hhead _ _ ih =>
    obtain ⟨o, ho⟩ := bracketed_printAll ih
    exact hhead.bracketed.append (ho.bracket rfl)
  | @array element _ ih =>
    have hempty : Bracketed [] false := .plain rfl
    have hbrackets : Bracketed ['[', ']'] false := hempty.bracket rfl
    have helement := ih.parenthesizeIf element.isOperator
    rw [Bool.not_and_self] at helement
    exact helement.append hbrackets
  | tuple _ _ ih =>
    obtain ⟨o, ho⟩ := bracketed_printAll ih
    exact ho.bracket rfl
  | @union left right _ _ ihl ihr =>
    have := (ihl.parenthesizeIf left.isFunction).append
      (hblank.append (Bracketed.bar.append (hblank.append (ihr.parenthesizeIf right.isOperator))))
    simpa [isOperator, print] using this
  | @function parameters result hlabels _ _ ihps ih =>
    obtain ⟨o, ho⟩ := bracketed_printParameters hlabels ihps
    have hopen : Bracketed ('(' :: (separated (printParameters parameters) ++ [')'])) false :=
      ho.bracket rfl
    have := hopen.append (hblank.append (Bracketed.arrow.append (hblank.append ih)))
    simpa [isOperator, print] using this

end TypeBridge.TsType
