import TypeBridge.Proofs.TypeText.Brackets
import Mathlib.Data.List.Infix

/-!
# What can be read off the text of a type

Whether a translated type needs parentheses in front of brackets, and whether it already allows a missing
value, is read off its text. For the text of a structure both readings say something about the structure.

Results:
* `hasTopLevelOperator_of_print`: a bar or an arrow stands outside of all brackets just in the texts of unions
  and functions.
* `nullText_suffix_print`: which texts end with the alternative `null`.
* `print_orNull`: what it means to append `null` to a text.
-/
namespace TypeBridge.TsType

open TypeText (operatorAtDepth)

/-! ## Operators outside of brackets -/

theorem operatorAtDepth_cons {c : Char} (hc : c ≠ '=') (depth : Int) (r : List Char) :
    operatorAtDepth depth (c :: r) =
      if TypeText.isOpening c then operatorAtDepth (depth + 1) r
      else if TypeText.isClosing c then operatorAtDepth (depth - 1) r
      else (c == '|' && depth == 0) || operatorAtDepth depth r := by
  conv => lhs; unfold operatorAtDepth
  split
  · rename_i heq; cases heq
  · rename_i heq; cases heq; exact absurd rfl hc
  · rename_i heq; cases heq; rfl

theorem operatorAtDepth_opening {c : Char} (hc : TypeText.isOpening c = true) (depth : Int)
    (r : List Char) : operatorAtDepth depth (c :: r) = operatorAtDepth (depth + 1) r := by
  rw [operatorAtDepth_cons (by rintro rfl; exact absurd hc (by decide)), if_pos hc]

theorem operatorAtDepth_closing {c : Char} (hc : TypeText.isClosing c = true) (depth : Int)
    (r : List Char) : operatorAtDepth depth (c :: r) = operatorAtDepth (depth - 1) r := by
  have ho : ¬ TypeText.isOpening c = true := by
    intro ho
    simp only [TypeText.isClosing, TypeText.isOpening, Bool.or_eq_true, beq_iff_eq] at hc ho
    rcases hc with ((rfl | rfl) | rfl) | rfl <;> simp at ho
  rw [operatorAtDepth_cons (by rintro rfl; exact absurd hc (by decide)), if_neg ho, if_pos hc]

/-- A text whose brackets match, and whether an operator stands outside of them all. -/
def Balanced (text : List Char) (operator : Bool) : Prop :=
  ∀ (depth : Int) (rest : List Char), 0 ≤ depth →
    operatorAtDepth depth (text ++ rest) = (depth == 0 && operator || operatorAtDepth depth rest)

theorem balanced_plain {text : List Char} (h : text.all isPlain = true) : Balanced text false := by
  intro depth rest hdepth
  induction text with
  | nil => simp
  | cons c text ih =>
    rw [List.all_cons, Bool.and_eq_true] at h
    obtain ⟨hc, htext⟩ := h
    simp only [isPlain, Bool.and_eq_true, Bool.not_eq_true', bne_iff_ne] at hc
    obtain ⟨⟨⟨ho, hcl⟩, hbar⟩, heq⟩ := hc
    rw [List.cons_append, operatorAtDepth_cons heq, ih htext]
    simp [ho, hcl, hbar]

theorem balanced_bar : Balanced ['|'] true := by
  intro depth rest _
  rw [List.singleton_append, operatorAtDepth_cons (by decide)]
  simp [TypeText.isOpening, TypeText.isClosing]

theorem balanced_arrow : Balanced ['=', '>'] true := by
  intro depth rest _
  simp [operatorAtDepth]

theorem Balanced.append {text text' : List Char} {o o' : Bool} (h : Balanced text o)
    (h' : Balanced text' o') : Balanced (text ++ text') (o || o') := by
  intro depth rest hdepth
  rw [List.append_assoc, h depth _ hdepth, h' depth rest hdepth]
  cases o <;> cases o' <;> simp

theorem Balanced.bracket {text : List Char} {o : Bool} (h : Balanced text o) {c c' : Char}
    (hc : TypeText.isOpening c = true) (hc' : TypeText.isClosing c' = true) :
    Balanced (c :: (text ++ [c'])) false := by
  intro depth rest hdepth
  have hne : (depth + 1 == 0) = false := by
    rw [beq_eq_false_iff_ne]
    omega
  rw [List.cons_append, operatorAtDepth_opening hc, List.append_assoc, List.singleton_append,
    h (depth + 1) _ (by omega), operatorAtDepth_closing hc', hne, show depth + 1 - 1 = depth by omega]
  simp

/-- In a text that is put together with matching brackets, an operator is found outside of them just when one
stands there. -/
theorem Bracketed.balanced {text : List Char} {o : Bool} (h : Bracketed text o) : Balanced text o := by
  induction h with
  | plain hplain => exact balanced_plain hplain
  | bar => exact balanced_bar
  | arrow => exact balanced_arrow
  | append _ _ ih ih' => exact ih.append ih'
  | bracket _ hclose ih => exact ih.bracket (closing?_spec hclose).1 (closing?_spec hclose).2.1

theorem hasTopLevelOperator_of_print {t : TsType} (h : t.WellFormed IsHead) {text : String}
    (htext : text.toList = t.print) : TypeText.hasTopLevelOperator text = t.isOperator := by
  have := (bracketed_print h).balanced 0 [] (by omega)
  rw [List.append_nil] at this
  rw [TypeText.hasTopLevelOperator, htext, this]
  simp [operatorAtDepth]

/-! ## Unions with null -/

def isNull : TsType → Bool
  | .name text => text == "null"
  | _ => false

/-- Whether the last part of the text is an alternative that is `null`. -/
def endsInNull : TsType → Bool
  | .union _ right => right.isNull
  | .function _ result => result.endsInNull
  | _ => false

/-- The structure of a text to which the alternative `null` is appended, unless it ends with one. What is
appended to a function belongs to its result. -/
def orNull : TsType → TsType
  | .function parameters result => .function parameters result.orNull
  | t => if t.endsInNull then t else .union t (.name "null")

/-- The text ` | null`. -/
def nullText : List Char := [' ', '|', ' ', 'n', 'u', 'l', 'l']

theorem not_nullText_suffix_concat {text : List Char} {c : Char} (hc : c ≠ 'l') :
    ¬ nullText <:+ text ++ [c] := by
  rintro ⟨r, hr⟩
  have := congrArg List.getLast? hr
  simp [nullText] at this
  exact hc this.symm

theorem not_nullText_suffix_of_blank {text : List Char} (h : ' ' ∉ text) : ¬ nullText <:+ text :=
  fun hs => h (hs.subset (by simp [nullText]))

/-- An alternative that is one word is the word that is appended. -/
theorem nullText_suffix_word {text word : List Char} (h : ' ' ∉ word) :
    nullText <:+ text ++ ' ' :: '|' :: ' ' :: word ↔ word = ['n', 'u', 'l', 'l'] := by
  constructor
  · intro hs
    have hs' : ' ' :: word <:+ text ++ ' ' :: '|' :: ' ' :: word := ⟨text ++ [' ', '|'], by simp⟩
    rcases List.suffix_or_suffix_of_suffix hs hs' with hs | hs
    · rcases List.suffix_cons_iff.1 hs with heq | hs
      · simp only [nullText, List.cons.injEq, true_and] at heq
        rw [← heq] at h
        simp at h
      · exact absurd hs (not_nullText_suffix_of_blank h)
    · rw [← List.mem_tails] at hs
      simp [nullText] at hs
      rcases hs with rfl | rfl
      · simp at h
      · rfl
  · rintro rfl
    exact ⟨text, by simp [nullText]⟩

/-- What is appended after an arrow belongs to the result. -/
theorem nullText_suffix_arrow {text result : List Char} (h : result.head? ≠ some '|') :
    nullText <:+ text ++ '=' :: '>' :: ' ' :: result ↔ nullText <:+ result := by
  constructor
  · intro hs
    have hs' : '>' :: ' ' :: result <:+ text ++ '=' :: '>' :: ' ' :: result := ⟨text ++ ['='], by simp⟩
    rcases List.suffix_or_suffix_of_suffix hs hs' with hs | hs
    · rcases List.suffix_cons_iff.1 hs with heq | hs
      · cases heq
      · rcases List.suffix_cons_iff.1 hs with heq | hs
        · simp only [nullText, List.cons.injEq, true_and] at heq
          rw [← heq] at h
          simp at h
        · exact hs
    · have := hs.subset List.mem_cons_self
      simp [nullText] at this
  · rintro ⟨r, rfl⟩
    exact ⟨text ++ '=' :: '>' :: ' ' :: r, by simp⟩

theorem IsWord.not_mem {text : String} (h : IsWord text) {c : Char} (hc : isWordChar c = false) :
    c ∉ text.toList := by
  intro hmem
  rw [h.2 c hmem] at hc
  cases hc

theorem IsHead.head?_ne {text : String} (h : IsHead text) (rest : List Char) :
    (text.toList ++ rest).head? ≠ some '|' := by
  rcases h with h | rfl
  · cases htext : text.toList with
    | nil => exact absurd htext h.1
    | cons c r =>
      have hc := h.2 c (by simp [htext])
      intro hbar
      cases hbar
      exact absurd hc (by decide)
  · simp

theorem parenthesizeIf_head?_ne {condition : Bool} {text : List Char} {rest : List Char}
    (h : (text ++ rest).head? ≠ some '|') : (parenthesizeIf condition text ++ rest).head? ≠ some '|' := by
  cases condition with
  | false => exact h
  | true => simp [parenthesizeIf]

/-- No type begins with a bar. -/
theorem print_head?_ne {t : TsType} (h : t.WellFormed IsHead) (rest : List Char) :
    (t.print ++ rest).head? ≠ some '|' := by
  induction h generalizing rest with
  | name htext => exact IsHead.head?_ne (.inl htext) rest
  | application hhead _ _ _ =>
    rw [print, List.append_assoc]
    exact hhead.head?_ne _
  | array _ ih =>
    rw [print, List.append_assoc]
    exact parenthesizeIf_head?_ne (ih _)
  | tuple _ _ _ => simp [print]
  | union _ _ ihl _ =>
    rw [print, List.append_assoc]
    exact parenthesizeIf_head?_ne (ihl _)
  | function _ _ _ _ _ => simp [print]

/-- A text without an operator is a name, or ends with a bracket. -/
theorem print_eq_concat {t : TsType} (ho : t.isOperator = false) :
    (∃ text, t = .name text) ∨ t.isNull = false ∧ ∃ text c, t.print = text ++ [c] ∧ c ≠ 'l' := by
  cases t with
  | name text => exact .inl ⟨text, rfl⟩
  | application head arguments =>
    exact .inr ⟨rfl, head.toList ++ '<' :: separated (printAll arguments), '>', by simp [print], by decide⟩
  | array element =>
    exact .inr ⟨rfl, parenthesizeIf element.isOperator element.print ++ ['['], ']', by simp [print],
      by decide⟩
  | tuple elements =>
    exact .inr ⟨rfl, '[' :: separated (printAll elements), ']', by simp [print], by decide⟩
  | union left right => cases ho
  | function parameters result => cases ho

theorem not_nullText_suffix_print {t : TsType} (h : t.WellFormed IsHead) (ho : t.isOperator = false) :
    ¬ nullText <:+ t.print := by
  obtain ⟨text, rfl⟩ | ⟨-, text, c, htext, hc⟩ := print_eq_concat ho
  · cases h with
    | name htext => exact not_nullText_suffix_of_blank (htext.not_mem rfl)
  · rw [htext]
    exact not_nullText_suffix_concat hc

/-- The last alternative of a union. -/
theorem nullText_suffix_union {right : TsType} (h : right.WellFormed IsHead) (text : List Char) :
    nullText <:+ text ++ ' ' :: '|' :: ' ' :: parenthesizeIf right.isOperator right.print ↔
      right.isNull = true := by
  cases ho : right.isOperator with
  | true =>
    have hright : right.isNull = false := by cases right <;> first | rfl | cases ho
    have htext : text ++ ' ' :: '|' :: ' ' :: parenthesizeIf true right.print =
        (text ++ ' ' :: '|' :: ' ' :: '(' :: right.print) ++ [')'] := by
      simp [parenthesizeIf]
    rw [htext, hright]
    exact iff_of_false (not_nullText_suffix_concat (by decide)) nofun
  | false =>
    obtain ⟨word, rfl⟩ | ⟨hright, word, c, hword, hc⟩ := print_eq_concat ho
    · cases h with
      | name hword =>
        refine (nullText_suffix_word (hword.not_mem rfl)).trans ?_
        rw [isNull, beq_iff_eq, ← String.toList_inj]
        rfl
    · have htext : text ++ ' ' :: '|' :: ' ' :: parenthesizeIf false right.print =
          (text ++ ' ' :: '|' :: ' ' :: word) ++ [c] := by
        simp [parenthesizeIf, hword]
      rw [htext, hright]
      exact iff_of_false (not_nullText_suffix_concat hc) nofun

/-- The text ends with the alternative `null` just when its last part is that alternative. -/
theorem nullText_suffix_print {t : TsType} (h : t.WellFormed IsHead) :
    nullText <:+ t.print ↔ t.endsInNull = true := by
  induction h with
  | name hname => exact iff_of_false (not_nullText_suffix_print (.name hname) rfl) nofun
  | application hhead hne hall _ =>
    exact iff_of_false (not_nullText_suffix_print (.application hhead hne hall) rfl) nofun
  | array helement _ => exact iff_of_false (not_nullText_suffix_print (.array helement) rfl) nofun
  | tuple hne hall _ => exact iff_of_false (not_nullText_suffix_print (.tuple hne hall) rfl) nofun
  | union _ hright _ _ => exact nullText_suffix_union hright _
  | @function parameters result _ _ hresult _ ih =>
    have harrow := @nullText_suffix_arrow ('(' :: (separated (printParameters parameters) ++ [')', ' ']))
      result.print (by simpa using print_head?_ne hresult [])
    rw [endsInNull, ← ih, ← harrow]
    simp [print]

/-- What is appended to the text of a function belongs to its result. -/
theorem print_orNull (t : TsType) :
    t.orNull.print = if t.endsInNull then t.print else t.print ++ nullText := by
  fun_induction orNull t with
  | case1 parameters result ih =>
    rw [print, print, ih, endsInNull]
    split
    · rfl
    · simp
  | case2 t _ hends => rw [if_pos hends]
  | case3 t hfunction hends =>
    have hf : t.isFunction = false := by
      cases t with
      | function parameters result => exact absurd rfl (hfunction parameters result)
      | _ => rfl
    rw [if_neg hends, print, hf]
    rfl

end TypeBridge.TsType
