import TypeBridge.Translation.Basic

/-!
# Registries that agree

A translation asks its registry two questions: whether a name is that of an enumeration, and whether a type
has another one directly inside of it. So two registries that give the same answers translate every type in
the same way, however they came by what they know.

Results:
* `simpleText_eq`, `nameText_eq`: names.
* `nested_eq`, `translate_eq`: types inside of others, and type expressions.
-/
namespace TypeBridge

/-- What it means that two registries give the same answers. -/
structure Registry.Agrees (registry other : Registry) : Prop where
  isEnum : ∀ name, registry.isEnum name = other.isEnum name
  owns : ∀ owner name, registry.owns owner name = other.owns owner name

theorem Registry.Agrees.owner?_eq {registry other : Registry} (h : registry.Agrees other) (scope : Scope)
    (name : String) : registry.owner? scope name = other.owner? scope name := by
  have howns : (registry.owns · name) = (other.owns · name) := funext fun owner => h.owns owner name
  rw [owner?, owner?, howns]

namespace Translator

variable {options : Options} {registry other : Registry}

/-! ## Names -/

theorem simpleText_eq (h : registry.Agrees other) (scope : Scope) (name : String) :
    simpleText ⟨options, registry⟩ scope name = simpleText ⟨options, other⟩ scope name := by
  simp only [simpleText, h.owner?_eq]

theorem qualifiedText_eq (h : registry.Agrees other) (scope : Scope) (name : TypeName) (owner : String) :
    qualifiedText ⟨options, registry⟩ scope name owner = qualifiedText ⟨options, other⟩ scope name owner := by
  simp only [qualifiedText, isBase, simpleText_eq h, h.isEnum, h.owns, h.owner?_eq]

theorem nameText_eq (h : registry.Agrees other) (scope : Scope) (name : TypeName) :
    nameText ⟨options, registry⟩ scope name = nameText ⟨options, other⟩ scope name := by
  simp only [nameText, simpleText_eq h, qualifiedText_eq h]

/-! ## Types -/

/-- The marks of a type that is optional as a whole are found without a registry. -/
theorem core_eq_core (options : Options) (registry other : Registry) (type : TypeExpr) :
    core ⟨options, registry⟩ type = core ⟨options, other⟩ type := by
  fun_induction core ⟨options, registry⟩ type with
  | case1 inner ih => rw [core, ih]
  | case2 name argument hnullable ih =>
    have hother : isNullable ⟨options, other⟩ name 1 = true := hnullable
    rw [core, if_pos hother, ih]
  | case3 name argument hnullable =>
    have hother : ¬ isNullable ⟨options, other⟩ name 1 = true := hnullable
    rw [core, if_neg hother]
  | case4 type hinner hargument => rw [core.eq_3 _ _ hinner hargument]

theorem genericText_eq (h : registry.Agrees other) (scope : Scope) (name : TypeName) (arguments : List String) :
    genericText ⟨options, registry⟩ scope name arguments = genericText ⟨options, other⟩ scope name arguments := by
  have hunknown : unknownText ⟨options, registry⟩ scope name arguments =
      unknownText ⟨options, other⟩ scope name arguments := by
    rw [unknownText, unknownText, nameText_eq h]
  -- Templates, and the rules for the names that are known, come from the options alone.
  rw [genericText, genericText, hunknown]
  rfl

mutual
theorem nested_eq (h : registry.Agrees other) (scope : Scope) (type : TypeExpr) :
    nested ⟨options, registry⟩ scope type = nested ⟨options, other⟩ scope type := by
  cases type with
  | named name => exact nameText_eq h scope name
  | generic name arguments =>
    rw [nested, nested, nestedAll_eq h scope arguments, genericText_eq h]
    rfl
  | array element rank => rw [nested, nested, nested_eq h scope element]
  | nullable inner => rw [nested, nested, nested_eq h scope inner]
  | tuple elements => rw [nested, nested, nestedElements_eq h scope elements]

theorem nestedAll_eq (h : registry.Agrees other) (scope : Scope) (types : List TypeExpr) :
    nestedAll ⟨options, registry⟩ scope types = nestedAll ⟨options, other⟩ scope types := by
  cases types with
  | nil => rfl
  | cons type types => rw [nestedAll, nestedAll, nested_eq h scope type, nestedAll_eq h scope types]

theorem nestedElements_eq (h : registry.Agrees other) (scope : Scope)
    (elements : List (Option String × TypeExpr)) :
    nestedElements ⟨options, registry⟩ scope elements = nestedElements ⟨options, other⟩ scope elements := by
  cases elements with
  | nil => rfl
  | cons element elements =>
    obtain ⟨label, type⟩ := element
    rw [nestedElements, nestedElements, nested_eq h scope type, nestedElements_eq h scope elements]
end

theorem text_eq (h : registry.Agrees other) (scope : Scope) (type : TypeExpr) :
    text ⟨options, registry⟩ scope type = text ⟨options, other⟩ scope type := by
  rw [text, text, core_eq_core options registry other]
  simp only [nested_eq h scope]

/-- Registries that agree give every type expression the same text. -/
theorem translate_eq (h : registry.Agrees other) (scope : Scope) (expression : String) :
    translate ⟨options, registry⟩ scope expression = translate ⟨options, other⟩ scope expression := by
  rw [translate, translate]
  split
  · exact text_eq h scope _
  · rfl

end Translator

end TypeBridge
