import TypeBridge.Proofs.Translation.Meaning
import TypeBridge.Proofs.TypeExpr.Spelling

/-!
# The mark of optional types

Whether a type is optional as a whole is transported as the last character of its text. That is safe when no text
of a type has this character anywhere else, and when the mark is put after a text for the outermost types only,
once, however often the type is marked there.

Results:
* `core_fst_iff`, `isCore_core`: whether a type has marks around it, and what is left without them.
* `not_mem_print`, `mark_not_mem_nested`: no text of a type inside another one has the mark in it.
* `parse_question`: a question mark after a text marks its type.
* `splitOptional_translate`: what is read off the text of a type, and what a further mark does to it.
-/
namespace TypeBridge

/-! ## Marks -/

namespace Translator

variable {registry : Registry} {scope : Scope}

/-- What it means that a type is another one with one mark of an optional type around it. -/
inductive Marks (translator : Translator) (inner : TypeExpr) : TypeExpr → Prop
  | question : Marks translator inner (.nullable inner)
  | wrapper {name : TypeName} :
    translator.knownName? name = some "Nullable" → Marks translator inner (.generic name [inner])

/-- What it means that a type is optional as a whole. -/
def IsOptional (translator : Translator) (type : TypeExpr) : Prop := ∃ inner, translator.Marks inner type

/-- What it means that a type is left when all marks of an optional type are taken from around another one. -/
structure IsCore (translator : Translator) (inner type : TypeExpr) : Prop where
  marks : Relation.ReflTransGen translator.Marks inner type
  not_isOptional : ¬ translator.IsOptional inner

theorem Marks.unique {translator : Translator} {first second type : TypeExpr} (h : translator.Marks first type)
    (h' : translator.Marks second type) : first = second := by
  cases h with
  | question => cases h' with | question => rfl
  | wrapper _ => cases h' with | wrapper _ => rfl

theorem IsCore.eq_of_not_isOptional {translator : Translator} {inner type : TypeExpr}
    (h : translator.IsCore inner type) (hnot : ¬ translator.IsOptional type) : inner = type := by
  rcases h.marks.cases_tail with heq | ⟨next, -, hmarks⟩
  · exact heq.symm
  · exact absurd ⟨next, hmarks⟩ hnot

/-- Nothing else is left of a type. -/
theorem IsCore.unique {translator : Translator} {first second type : TypeExpr} (h : translator.IsCore first type)
    (h' : translator.IsCore second type) : first = second := by
  obtain ⟨hmarks, hfirst⟩ := h
  obtain ⟨hmarks', hsecond⟩ := h'
  induction hmarks with
  | refl =>
    rcases hmarks'.cases_tail with heq | ⟨next, -, hmark⟩
    · exact heq
    · exact absurd ⟨next, hmark⟩ hfirst
  | tail _ hmark ih =>
    rcases hmarks'.cases_tail with heq | ⟨next, hnext, hmark'⟩
    · rw [← heq] at hsecond
      exact absurd ⟨_, hmark⟩ hsecond
    · rw [← hmark.unique hmark'] at hnext
      exact ih hnext

theorem isNullable_iff {name : TypeName} {count : Nat} :
    (usual registry).isNullable name count = true ↔
      count = 1 ∧ (usual registry).knownName? name = some "Nullable" := by
  rw [isNullable, Bool.and_eq_true, beq_iff_eq]
  cases (usual registry).knownName? name with
  | none => simp
  | some known => simp [usual]

/-- A type has marks to take away just when it is optional as a whole. -/
theorem core_fst_iff {type : TypeExpr} : ((usual registry).core type).1 = true ↔ (usual registry).IsOptional type := by
  have hmarked : ∀ {inner type}, (usual registry).Marks inner type → ((usual registry).core type).1 = true := by
    intro inner type hmarks
    cases hmarks with
    | question => rfl
    | wrapper hname => rw [core_nullable_eq (isNullable_iff.2 ⟨rfl, hname⟩)]
  refine ⟨fun h => ?_, fun ⟨_, hmarks⟩ => hmarked hmarks⟩
  cases type with
  | nullable inner => exact ⟨inner, .question⟩
  | generic name arguments =>
    cases hnullable : (usual registry).isNullable name arguments.length with
    | true =>
      obtain ⟨argument, rfl, hone⟩ := eq_singleton_of_isNullable hnullable
      exact ⟨argument, .wrapper (isNullable_iff.1 hone).2⟩
    | false =>
      rw [core_generic_eq hnullable] at h
      cases h
  | _ => cases h

instance (type : TypeExpr) : Decidable ((usual registry).IsOptional type) := decidable_of_iff _ core_fst_iff

/-- The marks that are taken away are all those around a type. -/
theorem isCore_core {type : TypeExpr} (h : type.WellFormed) :
    (usual registry).IsCore ((usual registry).core type).2 type := by
  refine ⟨?_, ?_⟩
  · induction h with
    | nullable _ ih => exact ih.tail .question
    | @generic name arguments _ _ _ ih =>
      cases hnullable : (usual registry).isNullable name arguments.length with
      | true =>
        obtain ⟨argument, rfl, hone⟩ := eq_singleton_of_isNullable hnullable
        rw [core_nullable_eq hone]
        exact (ih argument List.mem_cons_self).tail (.wrapper (isNullable_iff.1 hone).2)
      | false =>
        rw [core_generic_eq hnullable]
    | _ => exact .refl
  · rw [← core_fst_iff, (core_spec h).2]
    nofun

end Translator

/-! ## Characters of texts -/

namespace TsType

/-- The characters of texts that are not those of words. -/
def signs : List Char := ['<', '>', '(', ')', '[', ']', ',', ':', ' ', '|', '=']

theorem IsHead.not_mem {text : String} (h : IsHead text) {c : Char} (hc : isWordChar c = false) (hsign : c ∉ signs) :
    c ∉ text.toList := by
  rcases h with h | rfl
  · exact h.not_mem hc
  · intro hmem
    have hall : "Promise<void>".toList.all (fun d => isWordChar d || signs.contains d) = true := by decide
    have hof := List.all_eq_true.1 hall c hmem
    rw [hc, Bool.false_or, List.contains_iff_mem] at hof
    exact hsign hof

theorem not_mem_separated {texts : List (List Char)} {c : Char} (hsign : c ∉ signs)
    (h : ∀ text ∈ texts, c ∉ text) : c ∉ separated texts := by
  intro hmem
  rcases mem_intercalate hmem with hmem | ⟨text, htext, hmem⟩
  · have hsub : [',', ' '] ⊆ signs := by decide
    exact hsign (hsub hmem)
  · exact h text htext hmem

theorem not_mem_printAll {types : List TsType} {c : Char} (hsign : c ∉ signs) (h : ∀ t ∈ types, c ∉ t.print) :
    c ∉ separated (printAll types) := by
  rw [printAll_eq_map]
  exact not_mem_separated hsign (List.forall_mem_map.2 h)

theorem not_mem_parenthesizeIf {condition : Bool} {text : List Char} {c : Char} (hsign : c ∉ signs)
    (h : c ∉ text) : c ∉ parenthesizeIf condition text := by
  cases condition with
  | false => exact h
  | true =>
    simp only [signs, List.mem_cons, List.not_mem_nil, or_false, not_or] at hsign
    simp [parenthesizeIf, h, hsign]

/-- A character that no word has is in no text of a structure unless it is a sign. -/
theorem not_mem_print {t : TsType} (h : t.WellFormed IsHead) {c : Char} (hc : isWordChar c = false)
    (hsign : c ∉ signs) : c ∉ t.print := by
  have hne := hsign
  simp only [signs, List.mem_cons, List.not_mem_nil, or_false, not_or] at hne
  induction h with
  | name htext => exact htext.not_mem hc
  | application hhead _ _ ih =>
    simp [print, hhead.not_mem hc hsign, not_mem_printAll hsign ih, hne]
  | @array element _ ih =>
    have helement := @not_mem_parenthesizeIf element.isOperator _ _ hsign ih
    simp [print, helement, hne]
  | tuple _ _ ih =>
    simp [print, not_mem_printAll hsign ih, hne]
  | @union left right _ _ ihl ihr =>
    have hleft := @not_mem_parenthesizeIf left.isFunction _ _ hsign ihl
    have hright := @not_mem_parenthesizeIf right.isOperator _ _ hsign ihr
    simp [print, hleft, hright, hne]
  | @function parameters result hlabels _ _ ihps ih =>
    have hparameters : c ∉ separated (printParameters parameters) := by
      rw [printParameters_eq_map]
      refine not_mem_separated hsign (List.forall_mem_map.2 fun p hp => ?_)
      simp [(hlabels p hp).not_mem hc, ihps p hp, hne]
    simp [print, hparameters, ih, hne]

end TsType

namespace TypeText

/-- The mark at the end of a text is found. -/
theorem splitOptional_mark (text : String) :
    splitOptional (text ++ String.singleton optionalMark) = (text, true) := by
  have hreverse : (text ++ String.singleton optionalMark).toList.reverse = '?' :: text.toList.reverse := by
    rw [String.toList_append, List.reverse_append]
    rfl
  rw [splitOptional, hreverse]
  simp

/-- No mark is found in a text that has none. -/
theorem splitOptional_of_not_mem {text : String} (h : optionalMark ∉ text.toList) :
    splitOptional text = (text, false) := by
  rw [splitOptional]
  split
  · rename_i r hreverse
    have hmem : '?' ∈ text.toList := by
      rw [← List.mem_reverse, hreverse]
      exact List.mem_cons_self
    exact absurd hmem h
  · rfl

end TypeText

/-! ## A further mark -/

namespace TypeExpr

/-- A question mark after a text is one more token. -/
theorem Writes.question {ts : List Token} {s : List Char} (h : Writes ts s) : Writes (ts ++ [.question]) (s ++ ['?']) := by
  have hends : ∀ {s}, EndsIdentifier s → EndsIdentifier (s ++ ['?']) := by
    intro s hs c hc
    cases s with
    | nil =>
      cases hc
      rfl
    | cons d s => exact hs c hc
  induction h with
  | done => exact .mark (t := .question) (by simp) .done
  | blank hblank _ ih => exact .blank hblank ih
  | mark hmark _ ih =>
    rw [List.cons_append, List.append_assoc]
    exact .mark hmark ih
  | name hid hend _ ih =>
    rw [List.cons_append, List.append_assoc]
    exact .name hid (hends hend) ih
  | verbatim hid hend _ ih =>
    rw [List.cons_append, List.cons_append, List.append_assoc]
    exact .verbatim hid (hends hend) ih

/-- A text with a question mark after it denotes the type of the text with a mark. -/
theorem parse_question {source : String} {type : TypeExpr} (h : parse source = .ok type) :
    parse (source ++ "?") = .ok (.nullable type) := by
  obtain ⟨ts, htokens, hderives⟩ := parse_eq_ok.1 h
  refine parse_eq_ok.2 ⟨ts ++ [.question], tokens_eq_ok_iff.2 ?_, hderives.type_append (.question .noSuffix)⟩
  rw [String.toList_append]
  exact (tokens_eq_ok_iff.1 htokens).question

end TypeExpr

namespace Translator

variable {registry : Registry} {scope : Scope}

/-- What is inside another type has no mark in its text. -/
theorem mark_not_mem_nested (hscope : ∀ owner ∈ scope.types, TsType.IsWord owner) {type : TypeExpr}
    (h : type.WellFormed) : TypeText.optionalMark ∉ ((usual registry).nested scope type).toList := by
  rw [toList_nested hscope h]
  exact TsType.not_mem_print (wellFormed_written hscope h) (by decide) (by decide)

theorem translate_of_parse {translator : Translator} {source : String} {type : TypeExpr}
    (h : TypeExpr.parse source = .ok type) :
    translator.translate scope source =
      bif (translator.core type).1 then
        translator.nested scope (translator.core type).2 ++ String.singleton TypeText.optionalMark
      else translator.nested scope (translator.core type).2 := by
  rw [translate, h]
  exact text_eq_cond type

/-- The text of a type has a mark just when the type is optional as a whole. The rest of the text has none, and is
that of what is left of the type without the marks around it. A further mark counts unless there was one before. -/
theorem splitOptional_translate (hscope : ∀ owner ∈ scope.types, TsType.IsWord owner) {source : String}
    {type : TypeExpr} (h : TypeExpr.parse source = .ok type) :
    ((TypeText.splitOptional ((usual registry).translate scope source)).2 = true ↔
        (usual registry).IsOptional type) ∧
      (∃ inner, (∀ other, (usual registry).IsCore other type ↔ other = inner) ∧
        (¬ (usual registry).IsOptional type → inner = type) ∧
        (TypeText.splitOptional ((usual registry).translate scope source)).1 = (usual registry).nested scope inner ∧
        '?' ∉ ((usual registry).nested scope inner).toList) ∧
      ((usual registry).IsOptional type →
        (usual registry).translate scope (source ++ "?") = (usual registry).translate scope source) ∧
      (¬ (usual registry).IsOptional type →
        (usual registry).translate scope (source ++ "?") = (usual registry).translate scope source ++ "?") := by
  have hwf := TypeExpr.wellFormed_of_parse h
  have hcore := @isCore_core registry type hwf
  have honly : ∀ other, (usual registry).IsCore other type ↔ other = ((usual registry).core type).2 :=
    fun other => ⟨fun hother => hother.unique hcore, fun heq => heq ▸ hcore⟩
  have hself : ¬ (usual registry).IsOptional type → ((usual registry).core type).2 = type :=
    hcore.eq_of_not_isOptional
  have hmark := @mark_not_mem_nested registry scope hscope _ (@core_spec registry type hwf).1
  have hquestion : (usual registry).translate scope (source ++ "?") =
      (usual registry).nested scope ((usual registry).core type).2 ++ String.singleton TypeText.optionalMark :=
    translate_of_parse (TypeExpr.parse_question h)
  have htext := @translate_of_parse scope (usual registry) source type h
  cases hfst : ((usual registry).core type).1 with
  | false =>
    have hnot : ¬ (usual registry).IsOptional type := by
      rw [← core_fst_iff, hfst]
      nofun
    rw [hfst, cond_false] at htext
    rw [hquestion, htext, TypeText.splitOptional_of_not_mem hmark]
    exact ⟨iff_of_false nofun hnot, ⟨_, honly, hself, rfl, hmark⟩, fun his => absurd his hnot, fun _ => rfl⟩
  | true =>
    have his : (usual registry).IsOptional type := core_fst_iff.1 hfst
    rw [hfst, cond_true] at htext
    rw [hquestion, htext, TypeText.splitOptional_mark]
    exact ⟨iff_of_true rfl his, ⟨_, honly, hself, rfl, hmark⟩, fun _ => rfl, fun hnot => absurd his hnot⟩

/-- Of several marks around a type, one is left in its text, and the one inside of it is none. -/
theorem splitOptional_translate_nullable :
    let scope : Scope := { declaringType := some "Order" }
    let source := "System.Nullable<List<int?>?>"
    TypeText.splitOptional ((usual {}).translate scope source) = ("(number | null)[]", true) ∧
      (usual {}).translate scope (source ++ "?") = "(number | null)[]?" := by
  intro scope source
  have htokens : TypeExpr.tokens source =
      .ok [.name "System", .dot, .name "Nullable", .less, .name "List", .less, .name "int", .question, .greater,
        .question, .greater] := by decide +kernel
  have hparse : TypeExpr.parse source =
      .ok (.generic ⟨["System"], "Nullable"⟩
        [.nullable (.generic ⟨[], "List"⟩ [.nullable (.named ⟨[], "int"⟩)])]) :=
    TypeExpr.parse_of_tokens htokens rfl
  have hscope : ∀ owner ∈ scope.types, TsType.IsWord owner := by decide
  have hoptional : (usual {}).IsOptional (.generic ⟨["System"], "Nullable"⟩
      [.nullable (.generic ⟨[], "List"⟩ [.nullable (.named ⟨[], "int"⟩)])]) := ⟨_, .wrapper rfl⟩
  obtain ⟨hmark, -, hfurther, -⟩ := @splitOptional_translate {} scope hscope source _ hparse
  have htext : (usual {}).translate scope source = "(number | null)[]?" := by decide +kernel
  refine ⟨Prod.ext ?_ (hmark.2 hoptional), (hfurther hoptional).trans htext⟩
  rw [htext]
  decide +kernel

end Translator

end TypeBridge
