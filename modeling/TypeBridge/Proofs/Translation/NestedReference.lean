import TypeBridge.Proofs.Translation.GenericRule

/-!
# References to nested types

A type that is nested in a declaration is called by the innermost declaration around the place that has one of its name,
whatever declaration its qualifier names. That is so of the name, and of the name applied to arguments when it has a
qualifier. A name without a qualifier that is applied to arguments is not looked up, and keeps its name.

Results:
* `nameText_of_refers`: the text of the name, with and without a qualifier.
* `genericText_of_simple`, `genericText_of_qualified`: the text of the name applied to arguments.
* `references_agree_iff`: which references to a nested type have its text.
-/
namespace TypeBridge

namespace TypeText

/-- A text that allows a missing value ends with the word for it. -/
theorem getLast?_orNull (text : String) : (orNull text).toList.getLast? = some 'l' := by
  rw [orNull]
  split
  · rename_i hends
    obtain ⟨init, hinit⟩ := List.isSuffixOf_iff_suffix.1 hends
    rw [← hinit, List.getLast?_append]
    rfl
  · rw [String.toList_append, List.getLast?_append]
    rfl

theorem getLast?_application (base : String) (arguments : List String) :
    (application base arguments).toList.getLast? = some '>' := by
  rw [application, String.toList_append, List.getLast?_append]
  rfl

theorem getLast?_tuple (elements : List String) : (tuple elements).toList.getLast? = some ']' := by
  rw [tuple, String.toList_append, List.getLast?_append]
  rfl

theorem application_ne {name text : String} {arguments : List String} (h : text.toList.getLast? ≠ some '>') :
    text ≠ application name arguments :=
  fun heq => h (heq ▸ getLast?_application name arguments)

end TypeText

namespace Translator

/-- What it means that nothing is known of a name but that types with this name are nested in others. -/
structure IsPlain (translator : Translator) (name : TypeName) : Prop where
  enumeration : translator.registry.isEnum name.simple = false
  scalar : translator.options.scalars.get? name.simple = none
  template : translator.options.templates.get? name.text = none
  collection : name.simple ∉ translator.options.orderedCollections ++ translator.options.keyedCollections
  asyncResult : name.simple ∉ translator.options.asyncResults
  delegate : name.simple ∉ ["Func", "Action", "Predicate"]

/-- The names that refer to a nested type: its own, and those that have in front of it a declaration that has one of
this name, in any namespace but one of the base library. -/
inductive Refers (translator : Translator) (name : String) : TypeName → Prop
  | simple : Refers translator name ⟨[], name⟩
  | qualified (space : List String) (owner : String) :
    translator.registry.owns owner name = true → translator.isBase ⟨space ++ [owner], name⟩ = false →
      Refers translator name ⟨space ++ [owner], name⟩

variable {translator : Translator} {scope : Scope} {name owner : String} {reference : TypeName}

/-! ## Names -/

/-- What marks its argument as optional has no qualifier. -/
theorem Refers.qualifier_eq_nil (h : translator.Refers name reference) {count : Nat}
    (hnullable : translator.isNullable reference count = true) : reference.qualifier = [] := by
  cases h with
  | simple => rfl
  | qualified space last _ hbase => simp [isNullable, knownName?, hbase] at hnullable

theorem nameText_of_refers (hplain : translator.IsPlain reference)
    (howner : translator.registry.owner? scope name = some owner) (h : translator.Refers name reference) :
    translator.nameText scope reference = owner ++ "." ++ name := by
  cases h with
  | simple =>
    have hasync := hplain.asyncResult
    have haction : name ≠ "Action" := fun heq => hplain.delegate (heq ▸ by simp)
    rw [nameText, List.getLast?_nil]
    simp only
    rw [simpleText, hplain.scalar]
    simp only
    rw [if_neg (by simpa using hasync), if_neg haction, howner]
  | qualified space last howns hbase =>
    have henumeration := hplain.enumeration
    rw [nameText, List.getLast?_concat]
    simp only
    rw [qualifiedText, if_neg (by simp [hbase]), if_neg (by simp [henumeration]), if_pos howns, howner]

/-! ## Generic types -/

theorem template?_of_isPlain (hplain : translator.IsPlain reference)
    (h : reference.qualifier = [] ∨ translator.isBase reference = false) (count : Nat) :
    translator.template? reference count = none := by
  rw [template?, knownName?_getD h, hplain.template, Option.filter_none]

/-- Without a qualifier, the name is kept, unless it is one of those that make tuples. -/
theorem genericText_of_simple (hplain : translator.IsPlain ⟨[], name⟩) (texts : List String) :
    translator.genericText scope ⟨[], name⟩ texts = TypeText.application name texts ∨
      translator.genericText scope ⟨[], name⟩ texts = TypeText.tuple texts := by
  have hknown : translator.knownName? ⟨[], name⟩ = some name := knownName?_of_base (.inl rfl)
  have hcollection := hplain.collection
  have hasync := hplain.asyncResult
  have hdelegate := hplain.delegate
  simp only [List.mem_append, List.mem_cons, List.not_mem_nil, or_false, not_or] at hcollection hasync hdelegate
  have hunknown : translator.unknownText scope ⟨[], name⟩ texts = TypeText.application name texts := rfl
  rw [genericText, template?_of_isPlain hplain (.inl rfl), hknown, ← hunknown]
  simp only [Option.bind_some]
  -- the rules look at whether there is one argument, two of them or another number
  rcases texts with _ | ⟨argument, _ | ⟨second, more⟩⟩
  all_goals
    simp only [knownText?]
    split_ifs <;> simp_all

/-- With a qualifier, the name is looked up. -/
theorem genericText_of_qualified (hplain : translator.IsPlain reference) (hne : reference.qualifier ≠ [])
    (hbase : translator.isBase reference = false) (texts : List String) :
    translator.genericText scope reference texts =
      TypeText.application (translator.nameText scope reference) texts := by
  have hqualified : reference.qualifier.isEmpty = false := List.isEmpty_eq_false_iff.2 hne
  rw [genericText, template?_of_isPlain hplain (.inr hbase), knownName?, hqualified, hbase]
  simp only [Bool.or_self, Bool.false_eq_true, if_false, Option.bind_none, Option.getD_none]
  rw [unknownText, hqualified]
  rfl

/-- The name applied to arguments is looked up just when it has a qualifier. -/
theorem nested_generic_iff (hplain : translator.IsPlain reference)
    (howner : translator.registry.owner? scope name = some owner) (h : translator.Refers name reference)
    (arguments : List TypeExpr) :
    translator.nested scope (.generic reference arguments) =
        TypeText.application (owner ++ "." ++ name) (arguments.map (translator.nested scope)) ↔
      reference.qualifier ≠ [] := by
  have hname := nameText_of_refers hplain howner h
  rw [nested_generic]
  cases h with
  | simple =>
    refine iff_of_false ?_ (by simp)
    split
    · exact TypeText.application_ne (by simp [TypeText.getLast?_orNull])
    · rcases @genericText_of_simple _ scope _ hplain (arguments.map (translator.nested scope)) with htext | htext
      · rw [htext, TypeText.application_inj]
        intro heq
        have hlength := congrArg String.length heq
        simp at hlength
      · rw [htext]
        exact TypeText.application_ne (by simp [TypeText.getLast?_tuple])
  | qualified space last howns hbase =>
    have hne : (⟨space ++ [last], name⟩ : TypeName).qualifier ≠ [] := by simp
    have hnullable : translator.isNullable ⟨space ++ [last], name⟩ arguments.length = false := by
      simp [isNullable, knownName?, hbase]
    refine iff_of_true ?_ hne
    rw [if_neg (by simp [hnullable]), genericText_of_qualified hplain hne hbase, hname]

theorem text_generic_iff (hplain : translator.IsPlain reference)
    (howner : translator.registry.owner? scope name = some owner) (h : translator.Refers name reference)
    (arguments : List TypeExpr) :
    translator.text scope (.generic reference arguments) =
        TypeText.application (owner ++ "." ++ name) (arguments.map (translator.nested scope)) ↔
      reference.qualifier ≠ [] := by
  rw [text_eq_cond]
  cases hnullable : translator.isNullable reference arguments.length with
  | false =>
    rw [core_generic_eq hnullable]
    exact nested_generic_iff hplain howner h arguments
  | true =>
    obtain ⟨argument, rfl, hone⟩ := eq_singleton_of_isNullable hnullable
    refine iff_of_false (fun heq => ?_) (not_not_intro (h.qualifier_eq_nil hnullable))
    rw [core_nullable_eq hone, cond_true] at heq
    exact TypeText.application_ne (by simp [TypeText.optionalMark]) heq

/-! ## All references -/

/-- A nested type is called by the innermost declaration around the place that has one of its name, by whatever name it
is referred to. The same is so of the name applied to arguments just when it has a qualifier. -/
theorem references_agree_iff (hplain : translator.IsPlain reference)
    (howner : translator.registry.owner? scope name = some owner) (h : translator.Refers name reference) :
    (translator.text scope (.named reference) = owner ++ "." ++ name ∧
        translator.nested scope (.named reference) = owner ++ "." ++ name) ∧
      ∀ arguments : List TypeExpr,
        (translator.text scope (.generic reference arguments) =
            TypeText.application (owner ++ "." ++ name) (arguments.map (translator.nested scope)) ↔
          reference.qualifier ≠ []) ∧
        (translator.nested scope (.generic reference arguments) =
            TypeText.application (owner ++ "." ++ name) (arguments.map (translator.nested scope)) ↔
          reference.qualifier ≠ []) := by
  have hname : translator.nested scope (.named reference) = owner ++ "." ++ name := by
    rw [nested, nameText_of_refers hplain howner h]
  exact ⟨⟨hname, hname⟩, fun arguments =>
    ⟨text_generic_iff hplain howner h arguments, nested_generic_iff hplain howner h arguments⟩⟩

/-- `Inner` and `App.Other.Inner<int>` are called `Outer.Inner` in a declaration inside of `Outer`, but `Inner<int>` is
not. -/
theorem references_differ_inner :
    let translator := usual { nested := [("Outer", "Inner"), ("Other", "Inner")] }
    let scope : Scope := { declaringType := some "Leaf", enclosingTypes := ["Outer", "Other"] }
    let arguments : List TypeExpr := [.named ⟨[], "int"⟩]
    translator.text scope (.named ⟨[], "Inner"⟩) = "Outer.Inner" ∧
      translator.text scope (.generic ⟨["App", "Other"], "Inner"⟩ arguments) = "Outer.Inner<number>" ∧
      translator.text scope (.generic ⟨[], "Inner"⟩ arguments) = "Inner<number>" ∧
      translator.text scope (.generic ⟨[], "Inner"⟩ arguments) ≠ "Outer.Inner<number>" := by
  intro translator scope arguments
  have hplain : translator.IsPlain ⟨[], "Inner"⟩ :=
    ⟨rfl, by decide +kernel, rfl, by decide +kernel, by decide +kernel, by decide +kernel⟩
  have hplain' : translator.IsPlain ⟨["App", "Other"], "Inner"⟩ :=
    ⟨rfl, by decide +kernel, rfl, by decide +kernel, by decide +kernel, by decide +kernel⟩
  have howner : translator.registry.owner? scope "Inner" = some "Outer" := by decide +kernel
  have hqualified : translator.Refers "Inner" ⟨["App", "Other"], "Inner"⟩ :=
    .qualified ["App"] "Other" (by decide +kernel) (by decide +kernel)
  obtain ⟨⟨hname, -⟩, hsimple⟩ := @references_agree_iff translator scope _ _ _ hplain howner .simple
  obtain ⟨-, hother⟩ := @references_agree_iff translator scope _ _ _ hplain' howner hqualified
  have htext : TypeText.application ("Outer" ++ "." ++ "Inner") (arguments.map (translator.nested scope)) =
      "Outer.Inner<number>" := by decide +kernel
  rw [← htext]
  exact ⟨hname, (hother arguments).1.2 (by simp), by decide +kernel, fun heq => (hsimple arguments).1.1 heq rfl⟩

end Translator

end TypeBridge
