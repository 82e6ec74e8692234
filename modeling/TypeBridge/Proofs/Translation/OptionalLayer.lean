import TypeBridge.Proofs.Translation.Replacement

/-!
# Layers of optional types

A type is made optional by a question mark after it, or as the one argument of a generic type that says so, whose name
may have a qualifier of the base library in front. Which of these spellings a layer has plays no role, and neither does
how many layers there are, as long as there is one: at the outermost place all of them are taken away before anything is
translated, and inside of another type `null` is said once.

Results:
* `MakesOptional.nested_eq`, `MakesOptional.core_eq`: what one layer does to the text of a type and to its core.
* `nested_of_layers`, `core_of_layers`: any positive number of layers does the same.
* `text_eq_of_relayers`: layers can be replaced by others, in any number of places.
-/
namespace TypeBridge

namespace TypeText

/-- A missing value is allowed once. -/
theorem orNull_orNull (text : String) : orNull (orNull text) = orNull text := by
  have hends : Text.endsWith nullSuffix.toList (orNull text).toList = true := by
    rw [orNull]
    split
    · assumption
    · rw [String.toList_append]
      exact List.isSuffixOf_iff_suffix.2 (List.suffix_append _ _)
  conv => lhs; rw [orNull]
  rw [if_pos hends]

end TypeText

namespace Translator

/-- What it means that a type is another one made optional by one layer: a question mark, or a name that marks its
argument as optional, without a qualifier or with one of the base library. -/
inductive MakesOptional (translator : Translator) (inner : TypeExpr) : TypeExpr → Prop
  | question : MakesOptional translator inner (.nullable inner)
  | wrapper {name : TypeName} :
    name.simple ∈ translator.options.nullableWrappers → name.qualifier = [] ∨ translator.isBase name = true →
      MakesOptional translator inner (.generic name [inner])

/-- What it means that layers of an optional type, of which there is at least one, are replaced by others. -/
def Relayers (translator : Translator) (old new : TypeExpr) : Prop :=
  ∃ inner, Relation.TransGen translator.MakesOptional inner old ∧ Relation.TransGen translator.MakesOptional inner new

variable {translator : Translator} {scope : Scope}

theorem isNullable_of_wrapper {name : TypeName} (hwrapper : name.simple ∈ translator.options.nullableWrappers)
    (hname : name.qualifier = [] ∨ translator.isBase name = true) : translator.isNullable name 1 = true := by
  rw [isNullable, knownName?_of_base hname]
  simpa using hwrapper

/-! ## One layer -/

theorem MakesOptional.nested_eq {inner outer : TypeExpr} (h : translator.MakesOptional inner outer) :
    translator.nested scope outer = TypeText.orNull (translator.nested scope inner) := by
  cases h with
  | question => rw [nested]
  | wrapper hwrapper hname =>
    rw [nested_generic, List.length_singleton, if_pos (isNullable_of_wrapper hwrapper hname)]
    rfl

theorem MakesOptional.core_eq {inner outer : TypeExpr} (h : translator.MakesOptional inner outer) :
    translator.core outer = (true, (translator.core inner).2) := by
  cases h with
  | question => rw [core]
  | wrapper hwrapper hname => exact core_nullable_eq (isNullable_of_wrapper hwrapper hname)

/-! ## All layers -/

theorem nested_of_layers {inner outer : TypeExpr} (h : Relation.TransGen translator.MakesOptional inner outer) :
    translator.nested scope outer = TypeText.orNull (translator.nested scope inner) := by
  induction h with
  | single h => exact h.nested_eq
  | tail _ h ih => rw [h.nested_eq, ih, TypeText.orNull_orNull]

theorem core_of_layers {inner outer : TypeExpr} (h : Relation.TransGen translator.MakesOptional inner outer) :
    translator.core outer = (true, (translator.core inner).2) := by
  induction h with
  | single h => exact h.core_eq
  | tail _ h ih => rw [h.core_eq, ih]

theorem Relayers.sameTexts {old new : TypeExpr} (h : translator.Relayers old new) :
    SameTexts translator scope old new := by
  obtain ⟨inner, hold, hnew⟩ := h
  refine ⟨?_, ?_, ?_⟩
  · rw [nested_of_layers hold, nested_of_layers hnew]
  · rw [core_of_layers hold, core_of_layers hnew]
  · rw [core_of_layers hold, core_of_layers hnew]

/-- The text of a type stays the same when layers of optional types are replaced by others in it, in any number of
places and at any depth: a question mark by a name that says the same or the other way round, and one layer by any
positive number of them. -/
theorem text_eq_of_relayers {old new : TypeExpr}
    (h : Relation.ReflTransGen (TypeExpr.Replaces translator.Relayers) old new) :
    translator.text scope old = translator.text scope new ∧
      translator.nested scope old = translator.nested scope new := by
  have hsame : SameTexts translator scope old new := .of_replacements (fun _ _ => Relayers.sameTexts) h
  exact ⟨hsame.text_eq, hsame.nested⟩

/-- `List<int?>?` and `Lib.Maybe<Maybe<List<Lib.Core.Maybe<int?>>>>`, where `Maybe` marks its argument as optional and
`Lib` is the base library. -/
theorem text_eq_of_relayers_maybe :
    let translator : Translator := { options := { nullableWrappers := ["Maybe"], baseNamespaces := ["Lib"] } }
    let old : TypeExpr := .nullable (.generic ⟨[], "List"⟩ [.nullable (.named ⟨[], "int"⟩)])
    let new : TypeExpr := .generic ⟨["Lib"], "Maybe"⟩ [.generic ⟨[], "Maybe"⟩ [.generic ⟨[], "List"⟩
      [.generic ⟨["Lib", "Core"], "Maybe"⟩ [.nullable (.named ⟨[], "int"⟩)]]]]
    translator.text {} old = "(number | null)[]?" ∧ translator.text {} new = translator.text {} old := by
  intro translator old new
  have hquestion : ∀ inner, translator.MakesOptional inner (.nullable inner) := fun _ => .question
  have hmaybe : ∀ inner, translator.MakesOptional inner (.generic ⟨[], "Maybe"⟩ [inner]) :=
    fun _ => .wrapper (by decide) (.inl rfl)
  have hlib : ∀ inner, translator.MakesOptional inner (.generic ⟨["Lib"], "Maybe"⟩ [inner]) :=
    fun _ => .wrapper (by decide) (.inr rfl)
  have hcore : ∀ inner, translator.MakesOptional inner (.generic ⟨["Lib", "Core"], "Maybe"⟩ [inner]) :=
    fun _ => .wrapper (by decide) (.inr rfl)
  have hargument : translator.Relayers (.nullable (.named ⟨[], "int"⟩))
      (.generic ⟨["Lib", "Core"], "Maybe"⟩ [.nullable (.named ⟨[], "int"⟩)]) :=
    ⟨_, .single (hquestion _), .tail (.single (hquestion _)) (hcore _)⟩
  have hwhole : ∀ list, translator.Relayers (.nullable list)
      (.generic ⟨["Lib"], "Maybe"⟩ [.generic ⟨[], "Maybe"⟩ [list]]) :=
    fun _ => ⟨_, .single (hquestion _), .tail (.single (hmaybe _)) (hlib _)⟩
  have hreplaced : Relation.ReflTransGen (TypeExpr.Replaces translator.Relayers) old new :=
    .tail (.single (.inner (.argument _ [] [] (.here hargument)))) (.here (hwhole _))
  exact ⟨by decide +kernel, (@text_eq_of_relayers translator {} _ _ hreplaced).1.symm⟩

end Translator

end TypeBridge
