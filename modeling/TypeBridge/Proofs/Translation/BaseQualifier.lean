import TypeBridge.Proofs.Translation.Replacement
import TypeBridge.Proofs.Translation.GenericRule

/-!
# Qualifiers of the base library

The rules know a type of the base library by its simple name, so that its qualifier can be left out: no text changes as
long as no declaration around the place has a type of that name inside of it. There is one exception. When no rule knows
a generic type, its name is translated like one that stands alone if it has such a qualifier, and is kept as it is if it
has none. So the text changes when the name alone is translated to something else: `System.Task<int, string>` becomes
`Promise<void><number, string>`.

Results:
* `hasRule_unqualified`: rules and templates do not look at the qualifier.
* `Unqualifies.nested_iff`: one qualifier is left out.
* `text_unqualified_iff`: when qualifiers can be left out, in any number of places.
-/
namespace TypeBridge

/-- A name without its qualifier. -/
def TypeName.unqualified (name : TypeName) : TypeName := ⟨[], name.simple⟩

namespace Translator

section Definitions

variable (translator : Translator)

/-- What it means that a type has a qualifier of the base library that can be left out as far as the declarations around
the place are concerned, and another type is the one without it. -/
inductive Unqualifies (scope : Scope) : TypeExpr → TypeExpr → Prop
  | named {name : TypeName} :
    name.qualifier ≠ [] → translator.isBase name = true → translator.registry.owner? scope name.simple = none →
      Unqualifies scope (.named name) (.named name.unqualified)
  | generic {name : TypeName} (arguments : List TypeExpr) :
    name.qualifier ≠ [] → translator.isBase name = true → translator.registry.owner? scope name.simple = none →
      Unqualifies scope (.generic name arguments) (.generic name.unqualified arguments)

/-- What it means that a type is a generic one that no rule knows, and that its name alone is translated to something
else than itself. -/
def LosesName : TypeExpr → Prop
  | .generic name arguments =>
    translator.hasRule name arguments.length = false ∧ translator.simpleText {} name.simple ≠ name.simple
  | _ => False

end Definitions

variable {translator : Translator} {scope : Scope}

/-! ## Names -/

theorem nameText_of_base {name : TypeName} (hne : name.qualifier ≠ []) (hbase : translator.isBase name = true) :
    translator.nameText scope name = translator.simpleText {} name.simple := by
  rw [nameText, List.getLast?_eq_some_getLast hne]
  simp only
  rw [qualifiedText, if_pos hbase]

/-- Where no declaration around the place has a type of this name inside of it, the place plays no role. -/
theorem simpleText_of_owner?_eq_none {name : String} (h : translator.registry.owner? scope name = none) :
    translator.simpleText scope name = translator.simpleText {} name := by
  have hempty : translator.registry.owner? {} name = none := rfl
  rw [simpleText, simpleText, h, hempty]

section Unqualified

variable {name : TypeName} (hbase : translator.isBase name = true)
include hbase

theorem knownName?_unqualified : translator.knownName? name.unqualified = translator.knownName? name :=
  (@knownName?_of_base translator name.unqualified (.inl rfl)).trans (knownName?_of_base (.inr hbase)).symm

theorem isNullable_unqualified (count : Nat) :
    translator.isNullable name.unqualified count = translator.isNullable name count := by
  rw [isNullable, isNullable, knownName?_unqualified hbase]

theorem hasRule_unqualified (count : Nat) :
    translator.hasRule name.unqualified count = translator.hasRule name count := by
  rw [hasRule, hasRule, isNullable_unqualified hbase, template?, template?, knownName?_unqualified hbase,
    knownName?_of_base (.inr hbase)]
  rfl

end Unqualified

/-! ## One qualifier -/

/-- Leaving out one qualifier changes the text of a type just when the type loses its name by it. -/
theorem Unqualifies.nested_iff {old new : TypeExpr} (h : translator.Unqualifies scope old new) :
    translator.nested scope old = translator.nested scope new ↔ ¬ translator.LosesName old := by
  cases h with
  | @named name hne hbase howner =>
    refine iff_of_true ?_ id
    rw [nested, nested, nameText_of_base hne hbase, ← simpleText_of_owner?_eq_none howner]
    rfl
  | @generic name arguments hne hbase _ =>
    have hknown := knownName?_of_base (Or.inr hbase : name.qualifier = [] ∨ _)
    rw [LosesName]
    cases hrule : translator.hasRule name arguments.length with
    | true =>
      exact iff_of_true (nested_of_hasRule hknown ((knownName?_unqualified hbase).trans hknown) hrule)
        fun hloses => Bool.false_ne_true hloses.1.symm
    | false =>
      have hempty : name.qualifier.isEmpty = false := List.isEmpty_eq_false_iff.2 hne
      rw [nested_of_not_hasRule hrule, nested_of_not_hasRule ((hasRule_unqualified hbase _).trans hrule), unknownText,
        unknownText, hempty, nameText_of_base hne hbase, TypeText.application_inj]
      simp [TypeName.unqualified]

theorem Unqualifies.sameTexts {old new : TypeExpr} (h : translator.Unqualifies scope old new)
    (hkeeps : ¬ translator.LosesName old) : SameTexts translator scope old new := by
  have hnested := h.nested_iff.2 hkeeps
  cases h with
  | named => exact .of_nested hnested rfl rfl
  | @generic name arguments _ hbase _ =>
    cases hnullable : translator.isNullable name arguments.length with
    | false =>
      exact .of_nested hnested (core_generic_eq hnullable)
        (core_generic_eq ((isNullable_unqualified hbase _).trans hnullable))
    | true =>
      obtain ⟨argument, rfl, hone⟩ := eq_singleton_of_isNullable hnullable
      have hcore := @core_nullable_eq translator _ argument ((isNullable_unqualified hbase 1).trans hone)
      refine ⟨hnested, ?_, ?_⟩
      · rw [core_nullable_eq hone, hcore]
      · rw [core_nullable_eq hone, hcore]

theorem Unqualifies.text_iff {old new : TypeExpr} (h : translator.Unqualifies scope old new) :
    translator.text scope old = translator.text scope new ↔ ¬ translator.LosesName old := by
  refine ⟨fun htext hloses => ?_, fun hkeeps => (h.sameTexts hkeeps).text_eq⟩
  have hne := mt h.nested_iff.1 (not_not_intro hloses)
  cases h with
  | named => exact hloses
  | @generic name arguments _ hbase _ =>
    have hnullable := isNullable_of_not_hasRule hloses.1
    rw [text_eq_cond, text_eq_cond, core_generic_eq hnullable,
      core_generic_eq ((isNullable_unqualified hbase _).trans hnullable)] at htext
    exact hne htext

/-! ## Any number of qualifiers -/

/-- Qualifiers of the base library can be left out, at any depth and in any number of places, with no change to the text
of a type, unless one of them is that of a generic type that loses its name. The text of such a type does change. -/
theorem text_unqualified_iff (translator : Translator) (scope : Scope) :
    (∀ old new, Relation.ReflTransGen (TypeExpr.Replaces fun part part' =>
          translator.Unqualifies scope part part' ∧ ¬ translator.LosesName part) old new →
        translator.text scope old = translator.text scope new ∧
          translator.nested scope old = translator.nested scope new) ∧
      ∀ old new, translator.Unqualifies scope old new →
        (translator.text scope old = translator.text scope new ↔ ¬ translator.LosesName old) ∧
          (translator.nested scope old = translator.nested scope new ↔ ¬ translator.LosesName old) := by
  refine ⟨fun old new h => ?_, fun old new h => ⟨h.text_iff, h.nested_iff⟩⟩
  have hsame : SameTexts translator scope old new :=
    .of_replacements (fun _ _ hpart => hpart.1.sameTexts hpart.2) h
  exact ⟨hsame.text_eq, hsame.nested⟩

/-- `System.Collections.Generic.List<System.Guid>` is `List<Guid>`, but `System.Task<int, string>` is not
`Task<int, string>`. -/
theorem text_unqualified_ne_task :
    let list : TypeExpr := .generic ⟨["System", "Collections", "Generic"], "List"⟩ [.named ⟨["System"], "Guid"⟩]
    let task : TypeExpr := .generic ⟨["System"], "Task"⟩ [.named ⟨[], "int"⟩, .named ⟨[], "string"⟩]
    (usual {}).text {} list = (usual {}).text {} (.generic ⟨[], "List"⟩ [.named ⟨[], "Guid"⟩]) ∧
      (usual {}).text {} task = "Promise<void><number, string>" ∧
      (usual {}).text {} task ≠
        (usual {}).text {} (.generic ⟨[], "Task"⟩ [.named ⟨[], "int"⟩, .named ⟨[], "string"⟩]) := by
  intro list task
  obtain ⟨hall, hone⟩ := text_unqualified_iff (usual {}) {}
  have hguid : (usual {}).Unqualifies {} (.named ⟨["System"], "Guid"⟩) (.named ⟨[], "Guid"⟩) :=
    .named (by decide) rfl rfl
  have hlist : (usual {}).Unqualifies {} (.generic ⟨["System", "Collections", "Generic"], "List"⟩ [.named ⟨[], "Guid"⟩])
      (.generic ⟨[], "List"⟩ [.named ⟨[], "Guid"⟩]) := .generic _ (by decide) rfl rfl
  have htask : (usual {}).Unqualifies {} task
      (.generic ⟨[], "Task"⟩ [.named ⟨[], "int"⟩, .named ⟨[], "string"⟩]) := .generic _ (by decide) rfl rfl
  have hloses : (usual {}).LosesName task := ⟨by decide +kernel, by decide +kernel⟩
  refine ⟨(hall _ _ (.tail (.single (.argument _ [] [] (.here ⟨hguid, id⟩))) (.here ⟨hlist, ?_⟩))).1, by decide +kernel,
    fun heq => ((hone _ _ htask).1.1 heq) hloses⟩
  exact fun hlost => Bool.false_ne_true (hlost.1.symm.trans (by decide +kernel))

end Translator

end TypeBridge
