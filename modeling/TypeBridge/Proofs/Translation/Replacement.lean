import TypeBridge.Proofs.Translation.Structure
import Mathlib.Logic.Relation

/-!
# Replacing parts of types

The text of a type is made from the texts of its parts, so that a part can be replaced by another one with the same
text, at any depth. More has to agree at the outermost place, where the marks of an optional type are taken away
before anything is translated: the texts of two types agree there when the types are optional both or neither, and
when what is left of them has one text.

Results:
* `SameTexts.text_eq`: types that agree in this way have one text wherever they stand.
* `SameTexts.of_replaces`, `SameTexts.of_replacements`: one part is replaced, and any number of them.
-/
namespace TypeBridge

/-- What it means that one part of a type, at any depth, is replaced. -/
inductive TypeExpr.Replaces (P : TypeExpr → TypeExpr → Prop) : TypeExpr → TypeExpr → Prop
  | here {old new : TypeExpr} : P old new → Replaces P old new
  | argument {old new : TypeExpr} (name : TypeName) (before after : List TypeExpr) :
    Replaces P old new → Replaces P (.generic name (before ++ old :: after)) (.generic name (before ++ new :: after))
  | element {old new : TypeExpr} (rank : Nat) :
    Replaces P old new → Replaces P (.array old rank) (.array new rank)
  | inner {old new : TypeExpr} : Replaces P old new → Replaces P (.nullable old) (.nullable new)
  | component {old new : TypeExpr} (label : Option String) (before after : List (Option String × TypeExpr)) :
    Replaces P old new →
      Replaces P (.tuple (before ++ (label, old) :: after)) (.tuple (before ++ (label, new) :: after))

namespace Translator

variable {translator : Translator} {scope : Scope}

/-- What it means that two types have one text, both where they are inside of another type and where they are not. -/
structure SameTexts (translator : Translator) (scope : Scope) (old new : TypeExpr) : Prop where
  nested : translator.nested scope old = translator.nested scope new
  isOptional : (translator.core old).1 = (translator.core new).1
  core : translator.nested scope (translator.core old).2 = translator.nested scope (translator.core new).2

namespace SameTexts

theorem refl (type : TypeExpr) : SameTexts translator scope type type := ⟨rfl, rfl, rfl⟩

theorem trans {first second third : TypeExpr} (h : SameTexts translator scope first second)
    (h' : SameTexts translator scope second third) : SameTexts translator scope first third :=
  ⟨h.nested.trans h'.nested, h.isOptional.trans h'.isOptional, h.core.trans h'.core⟩

/-- Types without marks of an optional type only need one text inside of other types. -/
theorem of_nested {old new : TypeExpr} (h : translator.nested scope old = translator.nested scope new)
    (hold : translator.core old = (false, old)) (hnew : translator.core new = (false, new)) :
    SameTexts translator scope old new :=
  ⟨h, by rw [hold, hnew], by rwa [hold, hnew]⟩

theorem text_eq {old new : TypeExpr} (h : SameTexts translator scope old new) :
    translator.text scope old = translator.text scope new := by
  rw [text_eq_cond, text_eq_cond, h.isOptional, h.core]

/-- One argument of a generic type. What marks its only argument as optional passes on the marks inside of it. -/
theorem argument {old new : TypeExpr} (h : SameTexts translator scope old new) (name : TypeName)
    (before after : List TypeExpr) :
    SameTexts translator scope (.generic name (before ++ old :: after)) (.generic name (before ++ new :: after)) := by
  have hlength : (before ++ old :: after).length = (before ++ new :: after).length := by
    rw [List.length_append, List.length_append, List.length_cons, List.length_cons]
  have hnested : translator.nested scope (.generic name (before ++ old :: after)) =
      translator.nested scope (.generic name (before ++ new :: after)) := by
    rw [nested_generic, nested_generic, hlength, List.map_append, List.map_append, List.map_cons, List.map_cons,
      h.nested]
  cases hnullable : translator.isNullable name (before ++ old :: after).length with
  | false => exact of_nested hnested (core_generic_eq hnullable) (core_generic_eq (hlength ▸ hnullable))
  | true =>
    obtain ⟨argument, harguments, hone⟩ := eq_singleton_of_isNullable hnullable
    obtain ⟨rfl, rfl, rfl⟩ : before = [] ∧ old = argument ∧ after = [] := by
      simpa [List.append_eq_singleton_iff] using harguments
    refine ⟨hnested, ?_, ?_⟩
    · rw [List.nil_append, List.nil_append, core_nullable_eq hone, core_nullable_eq hone]
    · rw [List.nil_append, List.nil_append, core_nullable_eq hone, core_nullable_eq hone]
      exact h.core

theorem component {old new : TypeExpr} (h : SameTexts translator scope old new) (label : Option String)
    (before after : List (Option String × TypeExpr)) :
    SameTexts translator scope (.tuple (before ++ (label, old) :: after))
      (.tuple (before ++ (label, new) :: after)) := by
  refine of_nested ?_ rfl rfl
  rw [Translator.nested, Translator.nested, nestedElements_eq_map, nestedElements_eq_map, List.map_append,
    List.map_append, List.map_cons, List.map_cons, h.nested]

section Replacements

variable {P : TypeExpr → TypeExpr → Prop} (hP : ∀ old new, P old new → SameTexts translator scope old new)
include hP

theorem of_replaces {old new : TypeExpr} (h : TypeExpr.Replaces P old new) : SameTexts translator scope old new := by
  induction h with
  | here h => exact hP _ _ h
  | argument name before after _ ih => exact ih.argument name before after
  | element rank _ ih => exact of_nested (by rw [Translator.nested, Translator.nested, ih.nested]) rfl rfl
  | inner _ ih => exact ⟨by rw [Translator.nested, Translator.nested, ih.nested], rfl, ih.core⟩
  | component label before after _ ih => exact ih.component label before after

theorem of_replacements {old new : TypeExpr} (h : Relation.ReflTransGen (TypeExpr.Replaces P) old new) :
    SameTexts translator scope old new := by
  induction h with
  | refl => exact refl old
  | tail _ h ih => exact ih.trans (of_replaces hP h)

end Replacements

end SameTexts

end Translator

end TypeBridge
