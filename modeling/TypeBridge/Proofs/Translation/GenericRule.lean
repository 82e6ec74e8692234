import TypeBridge.Proofs.Translation.Structure

/-!
# Generic types that a rule knows

A generic type is translated by a template, by one of the rules for the names that are known, or as one that nothing is
known of. Which of these it is depends on its name and on how many arguments it has, and not on what these are.

Results:
* `isSome_knownText?`: the names that the rules know.
* `nested_of_not_hasRule`: the text of a generic type that nothing is known of.
* `nested_of_hasRule`: the qualifier of a generic type that something is known of plays no role.
-/
namespace TypeBridge

theorem TypeText.application_inj {base other : String} {arguments : List String} :
    application base arguments = application other arguments ↔ base = other := by
  refine ⟨fun h => ?_, fun h => h ▸ rfl⟩
  simpa [application, ← String.toList_inj] using h

namespace Translator

section Definitions

variable (translator : Translator)

/-- Whether the rules know a generic type of this name with so many arguments. -/
def isRuleName (known : String) (count : Nat) : Bool :=
  let options := translator.options
  options.tupleGenerics.contains known || known == "Func" || known == "Action" ||
    count == 1 && (options.orderedCollections.contains known || options.passthroughGenerics.contains known ||
      options.asyncResults.contains known || known == "Predicate") ||
    count == 2 && options.keyedCollections.contains known

/-- Whether a generic type with so many arguments is translated by a template or by a rule. -/
def hasRule (name : TypeName) (count : Nat) : Bool :=
  translator.isNullable name count || (translator.template? name count).isSome ||
    (translator.knownName? name).any (translator.isRuleName · count)

end Definitions

variable {translator : Translator} {scope : Scope}

theorem isSome_knownText? (known : String) (texts : List String) :
    (translator.knownText? known texts).isSome = translator.isRuleName known texts.length := by
  rw [Bool.eq_iff_iff]
  match texts with
  | [] =>
    simp only [knownText?, isRuleName]
    split_ifs <;> simp_all
  | [_] =>
    simp only [knownText?, isRuleName]
    split_ifs <;> simp_all
  | _ :: _ :: _ =>
    simp only [knownText?, isRuleName]
    split_ifs <;> simp_all
    tauto

theorem isNullable_of_not_hasRule {name : TypeName} {count : Nat} (h : translator.hasRule name count = false) :
    translator.isNullable name count = false := by
  rw [hasRule, Bool.or_eq_false_iff, Bool.or_eq_false_iff] at h
  exact h.1.1

/-- A generic type that no rule knows. -/
theorem nested_of_not_hasRule {name : TypeName} {arguments : List TypeExpr}
    (h : translator.hasRule name arguments.length = false) :
    translator.nested scope (.generic name arguments) =
      translator.unknownText scope name (arguments.map (translator.nested scope)) := by
  rw [hasRule, Bool.or_eq_false_iff, Bool.or_eq_false_iff, Option.isSome_eq_false_iff, Option.isNone_iff_eq_none] at h
  obtain ⟨⟨hnullable, htemplate⟩, hrule⟩ := h
  rw [nested_generic, if_neg (by simp [hnullable]), genericText, List.length_map, htemplate]
  cases hknown : translator.knownName? name with
  | none => rfl
  | some known =>
    rw [hknown, Option.any_some, ← List.length_map (translator.nested scope), ← isSome_knownText?,
      Option.isSome_eq_false_iff, Option.isNone_iff_eq_none] at hrule
    simp only [Option.bind_some, hrule, Option.getD_none]

/-- Rules and templates translate generic types in the same way that they know by one name. -/
theorem nested_of_hasRule {name other : TypeName} {known : String} (hname : translator.knownName? name = some known)
    (hother : translator.knownName? other = some known) {arguments : List TypeExpr}
    (h : translator.hasRule name arguments.length = true) :
    translator.nested scope (.generic name arguments) = translator.nested scope (.generic other arguments) := by
  have hnullable : translator.isNullable name arguments.length = translator.isNullable other arguments.length := by
    rw [isNullable, isNullable, hname, hother]
  have htemplate : translator.template? name arguments.length = translator.template? other arguments.length := by
    rw [template?, template?, hname, hother]
    rfl
  rw [nested_generic, nested_generic, hnullable, genericText, genericText, List.length_map, htemplate, hname, hother]
  rw [hasRule, hnullable, htemplate, hname, Option.any_some] at h
  cases htext : translator.knownText? known (arguments.map (translator.nested scope)) with
  | some text => simp only [Option.bind_some, htext, Option.getD_some]
  | none =>
    have hrule := @isSome_knownText? translator known (arguments.map (translator.nested scope))
    rw [htext, List.length_map, Option.isSome_none] at hrule
    rw [← hrule, Bool.or_false, Bool.or_eq_true] at h
    rcases h with h | h
    · rw [if_pos h, if_pos h]
    · obtain ⟨template, heq⟩ := Option.isSome_iff_exists.1 h
      rw [heq]

end Translator

end TypeBridge
