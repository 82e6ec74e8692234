import TypeBridge.Proofs.TypeText.Operators

/-!
# Texts that translations put together

Each operation that makes the text of a type of the texts of its parts makes the text of a structure.

Results:
* `toList_orNull`, `toList_array`, `toList_tuple`, `toList_application`, `toList_function`: which structure.
* `wellFormed_or_gap`, `not_reads_of_isInfix`: a text whose structure is not written with words alone has no
  structure when it is read.
-/
namespace TypeBridge.TsType

variable {good : String → Prop}

/-! ## Optional types and arrays -/

theorem isWord_null : IsWord "null" := by decide

theorem WellFormed.orNull {t : TsType} (h : t.WellFormed good) : t.orNull.WellFormed good := by
  fun_induction TsType.orNull t with
  | case1 parameters result ih =>
    cases h with
    | function hlabels htypes hresult => exact .function hlabels htypes (ih hresult)
  | case2 => exact h
  | case3 => exact .union h (.name isWord_null)

theorem toList_orNull {text : String} {t : TsType} (h : t.WellFormed IsHead)
    (htext : text.toList = t.print) : (TypeText.orNull text).toList = t.orNull.print := by
  have hsuffix : Text.endsWith TypeText.nullSuffix.toList text.toList = t.endsInNull := by
    rw [Bool.eq_iff_iff, ← nullText_suffix_print h, htext]
    exact List.isSuffixOf_iff_suffix
  rw [TypeText.orNull, hsuffix, print_orNull]
  split
  · exact htext
  · rw [String.toList_append, htext]
    rfl

/-- An array of arrays, so many levels deep. -/
def arrays (element : TsType) : Nat → TsType
  | 0 => element
  | rank + 1 => .array (arrays element rank)

theorem WellFormed.arrays {t : TsType} (h : t.WellFormed good) (rank : Nat) :
    (t.arrays rank).WellFormed good := by
  induction rank with
  | zero => exact h
  | succ rank ih => exact .array ih

theorem print_arrays (t : TsType) (rank : Nat) :
    (t.arrays (rank + 1)).print =
      parenthesizeIf t.isOperator t.print ++ (List.replicate (rank + 1) ['[', ']']).flatten := by
  induction rank with
  | zero => simp [TsType.arrays, print]
  | succ rank ih =>
    have hstep : (t.arrays (rank + 1 + 1)).print = (t.arrays (rank + 1)).print ++ ['[', ']'] := by
      rw [TsType.arrays, print]
      rfl
    have hflatten : (List.replicate (rank + 1 + 1) ['[', ']']).flatten =
        (List.replicate (rank + 1) ['[', ']']).flatten ++ ['[', ']'] := by
      rw [List.replicate_succ', List.flatten_append]
      rfl
    rw [hstep, ih, hflatten, List.append_assoc]

theorem toList_array {text : String} {t : TsType} (h : t.WellFormed IsHead)
    (htext : text.toList = t.print) {rank : Nat} (hrank : 1 ≤ rank) :
    (TypeText.array text rank).toList = (t.arrays rank).print := by
  obtain ⟨rank, rfl⟩ := Nat.exists_eq_add_of_le' hrank
  have helement : (TypeText.arrayElement text).toList = parenthesizeIf t.isOperator t.print := by
    rw [TypeText.arrayElement, hasTopLevelOperator_of_print h htext]
    cases t.isOperator with
    | false => simpa [parenthesizeIf] using htext
    | true => simp [parenthesizeIf, htext]
  rw [TypeText.array, String.toList_append, helement, print_arrays, String.toList_join,
    List.flatMap_def, List.map_replicate]
  rfl

/-! ## Lists of types -/

theorem toList_commaSeparated {texts : List String} {texts' : List (List Char)}
    (h : texts.map String.toList = texts') : (TypeText.commaSeparated texts).toList = separated texts' := by
  rw [TypeText.commaSeparated, String.toList_intercalate, h]
  rfl

theorem toList_tuple {texts : List String} {types : List TsType}
    (h : texts.map String.toList = printAll types) :
    (TypeText.tuple texts).toList = (TsType.tuple types).print := by
  rw [TypeText.tuple, String.toList_append, String.toList_append, toList_commaSeparated h]
  rfl

theorem toList_application (head : String) {texts : List String} {types : List TsType}
    (h : texts.map String.toList = printAll types) :
    (TypeText.application head texts).toList = (TsType.application head types).print := by
  rw [TypeText.application, String.toList_append, String.toList_append, String.toList_append,
    toList_commaSeparated h, print, List.append_assoc, List.append_assoc]
  rfl

/-- Parameters named by their positions, the first of which is given. -/
def positionalFrom (first : Nat) (types : List TsType) : List (String × TsType) :=
  (types.zipIdx first).map fun (type, i) => ("p" ++ toString i, type)

theorem isWord_positional (i : Nat) : IsWord ("p" ++ toString i) := by
  refine ⟨by simp, fun c hc => ?_⟩
  rw [String.toList_append, List.mem_append] at hc
  rcases hc with hc | hc
  · obtain rfl : c = 'p' := by simpa using hc
    decide
  · rw [Nat.toString_eq_repr, Nat.toList_repr] at hc
    have hdigit := Nat.isDigit_of_mem_toDigits (by decide) (by decide) hc
    simp [isWordChar, Char.isAlphanum, hdigit]

theorem WellFormed.positional {types : List TsType} (h : ∀ t ∈ types, t.WellFormed good) {r : TsType}
    (hr : r.WellFormed good) : (TsType.function (positionalFrom 0 types) r).WellFormed good := by
  refine .function (fun p hp => ?_) (fun p hp => ?_) hr
  · obtain ⟨⟨t, i⟩, -, rfl⟩ := List.mem_map.1 hp
    exact isWord_positional i
  · obtain ⟨⟨t, i⟩, hmem, rfl⟩ := List.mem_map.1 hp
    exact h t (List.fst_mem_of_mem_zipIdx hmem)

theorem map_positional {texts : List String} {types : List TsType}
    (h : texts.map String.toList = printAll types) (first : Nat) :
    ((texts.zipIdx first).map fun (type, i) => "p" ++ toString i ++ ": " ++ type).map String.toList =
      printParameters (positionalFrom first types) := by
  induction types generalizing texts first with
  | nil =>
    cases texts with
    | nil => rfl
    | cons text texts => cases h
  | cons type types ih =>
    cases texts with
    | nil => cases h
    | cons text texts =>
      rw [List.map_cons, printAll, List.cons.injEq] at h
      rw [positionalFrom, List.zipIdx_cons, List.zipIdx_cons, List.map_cons, List.map_cons, List.map_cons,
        printParameters, ih h.2 (first + 1)]
      congr 1
      simp [h.1]

/-- The text of a function whose parameters are named by their positions. -/
theorem toList_function {texts : List String} {types : List TsType}
    (h : texts.map String.toList = printAll types) {result : String} {r : TsType}
    (hr : result.toList = r.print) :
    (TypeText.function texts result).toList = (TsType.function (positionalFrom 0 types) r).print := by
  rw [TypeText.function, String.toList_append, String.toList_append, String.toList_append,
    TypeText.positionalParameters, toList_commaSeparated (map_positional h 0), hr, print,
    List.append_assoc, List.append_assoc]
  rfl

/-! ## Applications to further arguments -/

/-- What stands where a result that arrives later and has no value is applied to arguments. -/
def gap : List Char := ['d', '>', '<']

theorem isInfix_separated {text : List Char} {texts : List (List Char)} (h : text ∈ texts) :
    text <:+: separated texts := by
  induction texts with
  | nil => simp at h
  | cons text' texts ih =>
    cases texts with
    | nil =>
      rw [List.mem_singleton] at h
      rw [h, separated_singleton]
    | cons text'' texts =>
      rw [separated_cons_cons]
      rcases List.mem_cons.1 h with rfl | h
      · exact (List.prefix_append _ _).isInfix
      · exact (ih h).trans ⟨text' ++ [',', ' '], [], by simp⟩

theorem isInfix_printAll {t : TsType} {types : List TsType} (h : t ∈ types) :
    t.print <:+: separated (printAll types) :=
  isInfix_separated (by rw [printAll_eq_map]; exact List.mem_map_of_mem h)

theorem isInfix_printParameters {p : String × TsType} {parameters : List (String × TsType)}
    (h : p ∈ parameters) : p.2.print <:+: separated (printParameters parameters) := by
  have hp : p.2.print <:+: p.1.toList ++ ':' :: ' ' :: p.2.print := ⟨p.1.toList ++ [':', ' '], [], by simp⟩
  refine hp.trans (isInfix_separated ?_)
  rw [printParameters_eq_map]
  exact List.mem_map_of_mem h

theorem isInfix_parenthesizeIf (condition : Bool) (text : List Char) :
    text <:+: parenthesizeIf condition text := by
  cases condition with
  | false => exact List.infix_refl _
  | true => exact ⟨['('], [')'], by simp [parenthesizeIf]⟩

theorem forall_wellFormed_or_gap {types : List TsType}
    (h : ∀ t ∈ types, t.WellFormed IsWord ∨ gap <:+: t.print) :
    (∀ t ∈ types, t.WellFormed IsWord) ∨ gap <:+: separated (printAll types) := by
  by_cases hall : ∀ t ∈ types, t.WellFormed IsWord
  · exact .inl hall
  · obtain ⟨t, ht, hnot⟩ : ∃ t ∈ types, ¬ t.WellFormed IsWord := by simpa using hall
    exact .inr (((h t ht).resolve_left hnot).trans (isInfix_printAll ht))

theorem forall_parameter_wellFormed_or_gap {parameters : List (String × TsType)}
    (h : ∀ p ∈ parameters, p.2.WellFormed IsWord ∨ gap <:+: p.2.print) :
    (∀ p ∈ parameters, p.2.WellFormed IsWord) ∨ gap <:+: separated (printParameters parameters) := by
  by_cases hall : ∀ p ∈ parameters, p.2.WellFormed IsWord
  · exact .inl hall
  · obtain ⟨p, hp, hnot⟩ : ∃ p ∈ parameters, ¬ p.2.WellFormed IsWord := by simpa using hall
    exact .inr (((h p hp).resolve_left hnot).trans (isInfix_printParameters hp))

/-- In the text of a structure that is not written with words alone, something that has arguments is
applied to further ones. -/
theorem wellFormed_or_gap {t : TsType} (h : t.WellFormed IsHead) :
    t.WellFormed IsWord ∨ gap <:+: t.print := by
  induction h with
  | name htext => exact .inl (.name htext)
  | @application head arguments hhead hne _ ih =>
    rcases hhead with hhead | rfl
    · rcases forall_wellFormed_or_gap ih with hall | hgap
      · exact .inl (.application hhead hne hall)
      · exact .inr (hgap.trans ⟨head.toList ++ ['<'], ['>'], by simp [print]⟩)
    · exact .inr ⟨"Promise<voi".toList, separated (printAll arguments) ++ ['>'], rfl⟩
  | @array element _ ih =>
    rcases ih with ih | ih
    · exact .inl (.array ih)
    · have hgap := ih.trans (isInfix_parenthesizeIf element.isOperator element.print)
      exact .inr (hgap.trans (List.prefix_append _ _).isInfix)
  | @tuple elements hne _ ih =>
    rcases forall_wellFormed_or_gap ih with hall | hgap
    · exact .inl (.tuple hne hall)
    · exact .inr (hgap.trans ⟨['['], [']'], by simp [print]⟩)
  | @union left right _ _ ihl ihr =>
    rcases ihl with ihl | ihl
    · rcases ihr with ihr | ihr
      · exact .inl (.union ihl ihr)
      · have hgap := ihr.trans (isInfix_parenthesizeIf right.isOperator right.print)
        exact .inr (hgap.trans ⟨parenthesizeIf left.isFunction left.print ++ [' ', '|', ' '], [], by
          simp [print]⟩)
    · have hgap := ihl.trans (isInfix_parenthesizeIf left.isFunction left.print)
      exact .inr (hgap.trans (List.prefix_append _ _).isInfix)
  | @function parameters result hlabels _ _ ihps ih =>
    rcases ih with ih | ih
    · rcases forall_parameter_wellFormed_or_gap ihps with hall | hgap
      · exact .inl (.function hlabels hall ih)
      · exact .inr (hgap.trans ⟨['('], ')' :: ' ' :: '=' :: '>' :: ' ' :: result.print, by simp [print]⟩)
    · exact .inr (ih.trans ⟨'(' :: (separated (printParameters parameters) ++ [')', ' ', '=', '>', ' ']), [],
        by simp [print]⟩)

/-- A text with a gap has no structure at all. -/
theorem not_reads_of_isInfix {text : String} (h : gap <:+: text.toList) (type : TsType) :
    ¬ Reads text type := by
  obtain ⟨a, b, hab⟩ := h
  have htext : text.toList = a ++ 'd' :: '>' :: '<' :: b := by simp [← hab, gap]
  exact not_reads_of_gap (by decide) htext type

end TypeBridge.TsType
