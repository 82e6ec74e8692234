import TypeBridge.Translation.Basic
import TypeBridge.Proofs.TypeExpr.WellFormed
import TypeBridge.Proofs.TypeText.Composition

/-!
# Structures of translated types

The structure that the text of a translated type has, for the usual options: one definition follows the
rules with structures instead of texts. What it makes of an optional type, and of a generic type that no
rule knows, is left open, so that what a text says and what it should say are two cases of it.

Results:
* `toList_nameText`: the text of a name.
* `wellFormed_shape`: the structures have texts.
* `toList_nested`: the text of a type inside another one.
-/
namespace TypeBridge

theorem IsIdentifier.isWord {text : String} (h : IsIdentifier text) : TsType.IsWord text := by
  obtain ⟨c, r, htext, hc, hr⟩ := h
  have hstart : TsType.isWordChar c = true := by
    simp only [TypeExpr.isNameStart, TsType.isWordChar, Char.isAlphanum, Bool.or_eq_true] at hc ⊢
    tauto
  have hrest : ∀ d ∈ r, TsType.isWordChar d = true := by
    intro d hd
    have := hr d hd
    simp only [TypeExpr.isNameChar, TsType.isWordChar, Bool.or_eq_true] at this ⊢
    tauto
  rw [TsType.IsWord, htext]
  exact ⟨List.cons_ne_nil c r, List.forall_mem_cons.2 ⟨hstart, hrest⟩⟩

/-- Names with dots between them. -/
theorem TsType.IsWord.dot {a b : String} (ha : TsType.IsWord a) (hb : TsType.IsWord b) :
    TsType.IsWord (a ++ "." ++ b) := by
  refine ⟨by simp [ha.1], fun c hc => ?_⟩
  rw [String.toList_append, String.toList_append, List.mem_append, List.mem_append] at hc
  rcases hc with (hc | hc) | hc
  · exact ha.2 c hc
  · obtain rfl : c = '.' := by simpa using hc
    decide
  · exact hb.2 c hc

theorem TypeName.WellFormed.isWord_simple {name : TypeName} (h : name.WellFormed) :
    TsType.IsWord name.simple :=
  h.simple.isWord

theorem TypeName.WellFormed.isWord_text {name : TypeName} (h : name.WellFormed) :
    TsType.IsWord name.text := by
  have hsegments : ∀ segments : List String, segments ≠ [] → (∀ text ∈ segments, IsIdentifier text) →
      TsType.IsWord (".".intercalate segments) := by
    intro segments
    induction segments with
    | nil => exact fun hne => absurd rfl hne
    | cons first rest ih =>
      intro _ hids
      have hfirst := (hids first (by simp)).isWord
      cases rest with
      | nil => simpa using hfirst
      | cons second rest =>
        rw [String.intercalate_cons_cons]
        exact hfirst.dot (ih (by simp) fun text htext => hids text (List.mem_cons_of_mem _ htext))
  exact hsegments _ (by simp [TypeName.segments]) h

namespace Translator

/-- The usual translation. -/
def usual (registry : Registry) : Translator := { registry := registry }

section Definitions

variable (translator : Translator)

/-! ## Structures -/

/-- Whether the rules know a name as that of a result that arrives later. -/
def isAsync (name : TypeName) : Bool :=
  (translator.knownName? name).any translator.options.asyncResults.contains

/-- The structure of a name. -/
def namedStructure (scope : Scope) (name : TypeName) : TsType :=
  if translator.isAsync name then .application "Promise" [.name "void"]
  else if translator.knownName? name = some "Action" then .function [] (.name "void")
  else .name (translator.nameText scope name)

/-- The structure of a generic type that the rules know as `known`, if one of them applies. -/
def knownStructure? (known : String) (arguments : List TsType) : Option TsType :=
  let options := translator.options
  match arguments with
  | [argument] =>
    if options.orderedCollections.contains known then some (.array argument)
    else if options.passthroughGenerics.contains known then some (.application known arguments)
    else if options.tupleGenerics.contains known then some (.tuple arguments)
    else if options.asyncResults.contains known then some (.application "Promise" arguments)
    else if known = "Func" then some (.function [] argument)
    else if known = "Action" then some (.function (TsType.positionalFrom 0 arguments) (.name "void"))
    else if known = "Predicate" then some (.function [("value", argument)] (.name "boolean"))
    else none
  | _ =>
    if options.keyedCollections.contains known && arguments.length == 2 then
      some (.application "Record" arguments)
    else if options.tupleGenerics.contains known then some (.tuple arguments)
    else if known = "Func" then
      some (.function (TsType.positionalFrom 0 arguments.dropLast) (arguments.getLastD (.name "")))
    else if known = "Action" then
      some (.function (TsType.positionalFrom 0 arguments) (.name "void"))
    else none

section Shape

variable (optional : TsType → TsType) (head : TypeName → String) (scope : Scope)

mutual
/-- The structure of a type, given that of an optional type and what stands in front of the arguments of a
generic type that no rule knows. -/
def shape : TypeExpr → TsType
  | .named name => translator.namedStructure scope name
  | .generic name arguments =>
    let parts := shapeAll arguments
    if translator.isNullable name parts.length then optional (parts.headD (.name ""))
    else
      ((translator.knownName? name).bind (translator.knownStructure? · parts)).getD
        (.application (head name) parts)
  | .array element rank => (shape element).arrays rank
  | .nullable inner => optional (shape inner)
  | .tuple elements => .tuple (shapeElements elements)

def shapeAll : List TypeExpr → List TsType
  | [] => []
  | type :: types => shape type :: shapeAll types

def shapeElements : List (Option String × TypeExpr) → List TsType
  | [] => []
  | (_, type) :: elements => shape type :: shapeElements elements
end

end Shape

/-- What the text of a generic type that no rule knows begins with. -/
def unknownHead (scope : Scope) (name : TypeName) : String :=
  if name.qualifier.isEmpty then name.simple else translator.nameText scope name

/-- The structure of the text of a type. -/
def written (scope : Scope) : TypeExpr → TsType :=
  translator.shape TsType.orNull (translator.unknownHead scope) scope

end Definitions

variable {translator : Translator} {scope : Scope}

/-! ## Lists of types -/

theorem nestedAll_eq_map (types : List TypeExpr) :
    translator.nestedAll scope types = types.map (translator.nested scope) := by
  induction types with
  | nil => rw [nestedAll, List.map_nil]
  | cons type types ih => rw [nestedAll, ih, List.map_cons]

theorem nestedElements_eq_map (elements : List (Option String × TypeExpr)) :
    translator.nestedElements scope elements = elements.map fun e => translator.nested scope e.2 := by
  induction elements with
  | nil => rw [nestedElements, List.map_nil]
  | cons e elements ih => rw [nestedElements, ih, List.map_cons]

section Shape

variable {optional : TsType → TsType} {head : TypeName → String}

theorem shapeAll_eq_map (types : List TypeExpr) :
    translator.shapeAll optional head scope types = types.map (translator.shape optional head scope) := by
  induction types with
  | nil => rw [shapeAll, List.map_nil]
  | cons type types ih => rw [shapeAll, ih, List.map_cons]

theorem shapeElements_eq_map (elements : List (Option String × TypeExpr)) :
    translator.shapeElements optional head scope elements =
      elements.map fun e => translator.shape optional head scope e.2 := by
  induction elements with
  | nil => rw [shapeElements, List.map_nil]
  | cons e elements ih => rw [shapeElements, ih, List.map_cons]

end Shape

/-! ## Names -/

variable {registry : Registry}

theorem simple_of_knownName? {name : TypeName} {known : String} (h : translator.knownName? name = some known) :
    name.simple = known := by
  rw [knownName?] at h
  split at h
  · exact Option.some.inj h
  · cases h

theorem knownName?_of_base {name : TypeName} (h : name.qualifier = [] ∨ translator.isBase name = true) :
    translator.knownName? name = some name.simple := by
  rw [knownName?, if_pos]
  rcases h with h | h
  · rw [h]
    rfl
  · rw [h, Bool.or_true]

/-- How a generic type is looked up whose qualifier, if there is one, counts. -/
theorem knownName?_getD {name : TypeName} (h : name.qualifier = [] ∨ translator.isBase name = false) :
    (translator.knownName? name).getD name.text = name.text := by
  rw [knownName?]
  split
  · rename_i hknown
    rcases h with h | h
    · rw [Option.getD_some, TypeName.text, TypeName.segments, h]
      simp
    · rw [h, Bool.or_false, List.isEmpty_iff] at hknown
      rw [Option.getD_some, TypeName.text, TypeName.segments, hknown]
      simp
  · rfl

/-- A name that the rules know is looked up by its simple name alone. -/
theorem nameText_of_known {name : TypeName} {known : String}
    (h : translator.knownName? name = some known) :
    ∃ scope', scope'.types ⊆ scope.types ∧
      translator.nameText scope name = translator.simpleText scope' known := by
  have hsimple := simple_of_knownName? h
  rw [nameText]
  cases hlast : name.qualifier.getLast? with
  | none => exact ⟨scope, List.Subset.refl _, by rw [hsimple]⟩
  | some owner =>
    have hne : name.qualifier.isEmpty = false := by
      rw [List.isEmpty_eq_false_iff]
      intro hnil
      rw [hnil] at hlast
      cases hlast
    have hbase : translator.isBase name = true := by
      by_contra hbase
      rw [knownName?, hne, if_neg (by simpa using hbase)] at h
      cases h
    refine ⟨{}, by simp [Scope.types], ?_⟩
    simp only
    rw [qualifiedText, if_pos hbase, hsimple]

theorem mem_types_of_owner? {name owner : String} (h : registry.owner? scope name = some owner) :
    owner ∈ scope.types :=
  List.mem_of_find?_eq_some h

theorem isWord_of_scalar {known text : String} (h : Options.defaultScalars.get? known = some text) :
    TsType.IsWord text := by
  have hall : ∀ entry ∈ Options.defaultScalars,
      entry.2 ∈ ["number", "string", "boolean", "any", "void"] := by decide
  have hwords : ∀ word ∈ ["number", "string", "boolean", "any", "void"], TsType.IsWord word := by decide
  obtain ⟨before, after, hmem, -⟩ := List.lookup_eq_some_iff.1 h
  exact hwords _ (hall (known, text) (by simp [hmem]))

/-- The text of a name that the rules know, but not as something else than a name. -/
theorem isWord_simpleText {known : String} (hknown : TsType.IsWord known)
    (hscope : ∀ owner ∈ scope.types, TsType.IsWord owner)
    (hasync : ¬ (usual registry).options.asyncResults.contains known) (haction : known ≠ "Action") :
    TsType.IsWord ((usual registry).simpleText scope known) := by
  rw [simpleText]
  split
  · rename_i text htext
    exact isWord_of_scalar htext
  · rw [if_neg hasync, if_neg haction]
    split
    · rename_i owner howner
      exact (hscope owner (mem_types_of_owner? howner)).dot hknown
    · exact hknown

/-- The text of a name with a qualifier that counts for something. -/
theorem isWord_nameText {name : TypeName} (hname : name.WellFormed)
    (hscope : ∀ owner ∈ scope.types, TsType.IsWord owner)
    (hunknown : translator.knownName? name = none) : TsType.IsWord (translator.nameText scope name) := by
  rw [knownName?] at hunknown
  split at hunknown
  · cases hunknown
  · rename_i hq
    rw [Bool.or_eq_true, not_or] at hq
    have hsimple := hname.isWord_simple
    rw [nameText]
    split
    · rename_i hlast
      exact absurd (by simpa using hlast) hq.1
    · rename_i owner hlast
      have howner : TsType.IsWord owner := (hname.of_mem_qualifier (List.mem_of_getLast? hlast)).isWord
      rw [qualifiedText, if_neg hq.2]
      split
      · exact hsimple
      · split
        · split
          · rename_i inScope hin
            exact (hscope inScope (mem_types_of_owner? hin)).dot hsimple
          · simp only
            split
            · exact hname.isWord_text
            · exact howner.dot hsimple
        · split
          · exact hname.isWord_text
          · exact hsimple

theorem simpleText_async {known : String} (h : (usual registry).options.asyncResults.contains known) :
    (usual registry).simpleText scope known = "Promise<void>" := by
  have hmem : known ∈ ["Task", "ValueTask"] := by simpa [usual] using h
  have hnone : Options.defaultScalars.get? known = none := by
    rcases List.mem_pair.1 hmem with rfl | rfl <;> decide
  rw [simpleText, show (usual registry).options.scalars.get? known = none from hnone]
  exact if_pos h

theorem simpleText_action : (usual registry).simpleText scope "Action" = "() => void" := by
  have hnone : Options.defaultScalars.get? "Action" = none := by decide
  rw [simpleText, show (usual registry).options.scalars.get? "Action" = none from hnone]
  simp [usual]

theorem isAsync_iff {name : TypeName} {known : String} (h : translator.knownName? name = some known) :
    translator.isAsync name = translator.options.asyncResults.contains known := by
  rw [isAsync, h, Option.any_some]

theorem toList_nameText (name : TypeName) :
    ((usual registry).nameText scope name).toList = ((usual registry).namedStructure scope name).print := by
  rw [namedStructure]
  split
  · rename_i hasync
    cases hknown : (usual registry).knownName? name with
    | none => simp [isAsync, hknown] at hasync
    | some known =>
      rw [isAsync_iff hknown] at hasync
      obtain ⟨scope', -, htext⟩ := @nameText_of_known _ scope _ _ hknown
      rw [htext, simpleText_async hasync]
      rfl
  · split
    · rename_i hknown
      obtain ⟨scope', -, htext⟩ := @nameText_of_known _ scope _ _ hknown
      rw [htext, simpleText_action]
      rfl
    · rfl

theorem wellFormed_namedStructure {name : TypeName} (hname : name.WellFormed)
    (hscope : ∀ owner ∈ scope.types, TsType.IsWord owner) :
    ((usual registry).namedStructure scope name).WellFormed TsType.IsWord := by
  have hvoid : (TsType.name "void").WellFormed TsType.IsWord := .name (by decide)
  rw [namedStructure]
  split
  · exact .application (by decide) (by simp) (by simpa using hvoid)
  · rename_i hasync
    split
    · exact .function nofun nofun hvoid
    · rename_i haction
      apply TsType.WellFormed.name
      cases hknown : (usual registry).knownName? name with
      | none => exact isWord_nameText hname hscope hknown
      | some known =>
        rw [isAsync_iff hknown] at hasync
        obtain ⟨scope', hsub, htext⟩ := @nameText_of_known _ scope _ _ hknown
        have hword : TsType.IsWord known := simple_of_knownName? hknown ▸ hname.isWord_simple
        rw [htext]
        exact isWord_simpleText hword (fun owner h => hscope owner (hsub h)) hasync
          fun heq => haction (heq ▸ hknown)

theorem isWord_unknownHead {name : TypeName} (hname : name.WellFormed)
    (hscope : ∀ owner ∈ scope.types, TsType.IsWord owner)
    (haction : (usual registry).knownName? name ≠ some "Action")
    (hasync : ¬ (usual registry).isAsync name = true) :
    TsType.IsWord ((usual registry).unknownHead scope name) := by
  rw [unknownHead]
  split
  · exact hname.isWord_simple
  · have hword := @wellFormed_namedStructure scope registry name hname hscope
    rw [namedStructure, if_neg hasync, if_neg haction] at hword
    cases hword with
    | name h => exact h

/-- What stands in front of the arguments of a generic type that no rule knows is one word, or the text of
a result that arrives later. -/
theorem isHead_unknownHead {name : TypeName} (hname : name.WellFormed)
    (hscope : ∀ owner ∈ scope.types, TsType.IsWord owner)
    (haction : (usual registry).knownName? name ≠ some "Action") :
    TsType.IsHead ((usual registry).unknownHead scope name) := by
  by_cases hasync : (usual registry).isAsync name = true
  · rw [unknownHead]
    split
    · exact .inl hname.isWord_simple
    · have htext := @toList_nameText scope registry name
      rw [namedStructure, if_pos hasync] at htext
      exact .inr (String.toList_inj.1 htext)
  · exact .inl (isWord_unknownHead hname hscope haction hasync)

/-! ## Generic types -/

theorem getLastD_mem {α : Type} {l : List α} (hne : l ≠ []) (d : α) : l.getLastD d ∈ l := by
  rw [List.getLastD_eq_getLast?, List.getLast?_eq_some_getLast hne]
  exact List.getLast_mem hne

theorem wellFormed_knownStructure? {good : String → Prop} (hgood : ∀ text, TsType.IsWord text → good text)
    {known : String} (hknown : TsType.IsWord known) {parts : List TsType} (hne : parts ≠ [])
    (hall : ∀ t ∈ parts, t.WellFormed good) {t : TsType}
    (h : translator.knownStructure? known parts = some t) : t.WellFormed good := by
  have hvoid : (TsType.name "void").WellFormed good := .name (by decide)
  have hboolean : (TsType.name "boolean").WellFormed good := .name (by decide)
  have hvalue : TsType.IsWord "value" := by decide
  unfold knownStructure? at h
  simp only at h
  split at h
  · rename_i part
    have hpart := hall part (by simp)
    split_ifs at h <;> cases h
    · exact .array hpart
    · exact .application (hgood _ hknown) hne hall
    · exact .tuple hne hall
    · exact .application (hgood _ (by decide)) hne hall
    · exact .function nofun nofun hpart
    · exact .positional hall hvoid
    · exact .function (List.forall_mem_singleton.2 hvalue) (List.forall_mem_singleton.2 hpart) hboolean
  · split_ifs at h <;> cases h
    · exact .application (hgood _ (by decide)) hne hall
    · exact .tuple hne hall
    · exact .positional (fun t ht => hall t (List.mem_of_mem_dropLast ht)) (hall _ (getLastD_mem hne _))
    · exact .positional hall hvoid

theorem map_toList_dropLast {texts : List String} {parts : List TsType}
    (h : texts.map String.toList = TsType.printAll parts) :
    texts.dropLast.map String.toList = TsType.printAll parts.dropLast := by
  rw [TsType.printAll_eq_map] at h ⊢
  rw [List.map_dropLast, h, List.map_dropLast]

theorem toList_getLastD {texts : List String} {parts : List TsType}
    (h : texts.map String.toList = TsType.printAll parts) :
    (texts.getLastD "").toList = (parts.getLastD (.name "")).print := by
  rw [TsType.printAll_eq_map] at h
  have hlast := congrArg List.getLast? h
  rw [List.getLast?_map, List.getLast?_map] at hlast
  rw [List.getLastD_eq_getLast?, List.getLastD_eq_getLast?]
  cases htext : texts.getLast? <;> cases hpart : parts.getLast? <;>
    simp only [htext, hpart, Option.map_none, Option.map_some, Option.some.injEq, reduceCtorEq] at hlast
  · rfl
  · exact hlast

theorem toList_knownText? {known : String} {texts : List String} {parts : List TsType} (hne : parts ≠ [])
    (hall : ∀ t ∈ parts, t.WellFormed TsType.IsHead)
    (h : texts.map String.toList = TsType.printAll parts) :
    (translator.knownText? known texts).map String.toList =
      (translator.knownStructure? known parts).map TsType.print := by
  have hlength : texts.length = parts.length := by
    rw [TsType.printAll_eq_map] at h
    simpa using congrArg List.length h
  have haction : (TypeText.function texts "void").toList =
      (TsType.function (TsType.positionalFrom 0 parts) (.name "void")).print :=
    TsType.toList_function h (show "void".toList = (TsType.name "void").print from rfl)
  match texts, parts with
  | [], _ :: _ => cases hlength
  | [_], _ :: _ :: _ => simp at hlength
  | _ :: _ :: _, [_] => simp at hlength
  | [text], [part] =>
    have htext : text.toList = part.print := by simpa [TsType.printAll] using h
    have harray := TsType.toList_array (hall part (by simp)) htext (Nat.le_refl 1)
    have hpredicate : ("(value: " ++ text ++ ") => boolean").toList =
        (TsType.function [("value", part)] (.name "boolean")).print := by
      simp [TsType.print, TsType.printParameters, TsType.separated_singleton, htext]
    have hfunc : (TypeText.function [] text).toList = (TsType.function [] part).print :=
      TsType.toList_function (show [].map String.toList = TsType.printAll [] from rfl) htext
    rw [knownText?, knownStructure?]
    split_ifs
    · rw [Option.map_some, Option.map_some, harray]
      rfl
    · rw [Option.map_some, Option.map_some, TsType.toList_application known h]
    · rw [Option.map_some, Option.map_some, TsType.toList_tuple h]
    · rw [Option.map_some, Option.map_some, TsType.toList_application "Promise" h]
    · rw [Option.map_some, Option.map_some, hfunc]
    · rw [Option.map_some, Option.map_some, haction]
    · rw [Option.map_some, Option.map_some, hpredicate]
    · rfl
  | text :: text' :: texts, part :: part' :: parts =>
    have hfunc := TsType.toList_function (map_toList_dropLast h) (toList_getLastD h)
    unfold knownText? knownStructure?
    simp only
    rw [hlength]
    split_ifs
    · rw [Option.map_some, Option.map_some, TsType.toList_application "Record" h]
    · rw [Option.map_some, Option.map_some, TsType.toList_tuple h]
    · rw [Option.map_some, Option.map_some, hfunc]
    · rw [Option.map_some, Option.map_some, haction]
    · rfl

theorem knownStructure?_action (parts : List TsType) :
    (usual registry).knownStructure? "Action" parts =
      some (.function (TsType.positionalFrom 0 parts) (.name "void")) := by
  match parts with
  | [] => simp [knownStructure?, usual]
  | [part] => simp [knownStructure?, usual]
  | part :: part' :: parts => simp [knownStructure?, usual]

/-! ## Types -/

theorem core_generic_eq {name : TypeName} {arguments : List TypeExpr}
    (h : translator.isNullable name arguments.length = false) :
    translator.core (.generic name arguments) = (false, .generic name arguments) := by
  match arguments with
  | [] => exact core.eq_3 _ _ nofun nofun
  | [argument] => exact (core.eq_2 _ name argument).trans (if_neg (by simpa using h))
  | _ :: _ :: _ => exact core.eq_3 _ _ nofun nofun

theorem core_nullable_eq {name : TypeName} {argument : TypeExpr}
    (h : translator.isNullable name 1 = true) :
    translator.core (.generic name [argument]) = (true, (translator.core argument).2) :=
  (core.eq_2 _ name argument).trans (if_pos h)

/-- What marks its argument as optional has one. -/
theorem eq_singleton_of_isNullable {name : TypeName} {arguments : List TypeExpr}
    (h : translator.isNullable name arguments.length = true) :
    ∃ argument, arguments = [argument] ∧ translator.isNullable name 1 = true := by
  have hlength : arguments.length = 1 := by
    rw [isNullable, Bool.and_eq_true, beq_iff_eq] at h
    exact h.1
  obtain ⟨argument, rfl⟩ := List.length_eq_one_iff.1 hlength
  exact ⟨argument, rfl, h⟩

/-- What is left of a type without its marks is a type of its own. -/
theorem wellFormed_core {type : TypeExpr} (h : type.WellFormed) : (translator.core type).2.WellFormed := by
  induction h with
  | named hname => exact .named hname
  | @generic name arguments hname hne hall ih =>
    cases hnullable : translator.isNullable name arguments.length with
    | true =>
      obtain ⟨argument, rfl, hone⟩ := eq_singleton_of_isNullable hnullable
      rw [core_nullable_eq hone]
      exact ih argument List.mem_cons_self
    | false =>
      rw [core_generic_eq hnullable]
      exact .generic hname hne hall
  | array helement hrank _ => exact .array helement hrank
  | nullable _ ih => exact ih
  | tuple hne hsingle hall hlabels _ => exact .tuple hne hsingle hall hlabels

/-- The text of a generic type in terms of the texts of its arguments. -/
theorem nested_generic (name : TypeName) (arguments : List TypeExpr) :
    translator.nested scope (.generic name arguments) =
      if translator.isNullable name arguments.length then
        TypeText.orNull ((arguments.map (translator.nested scope)).headD "")
      else translator.genericText scope name (arguments.map (translator.nested scope)) := by
  rw [nested, nestedAll_eq_map]
  simp only [List.length_map]

/-- The text of a type that is inside no other, in terms of what is left of it without its marks. -/
theorem text_eq_cond (type : TypeExpr) :
    translator.text scope type =
      bif (translator.core type).1 then
        translator.nested scope (translator.core type).2 ++ String.singleton TypeText.optionalMark
      else translator.nested scope (translator.core type).2 := by
  rw [text]
  rcases translator.core type with ⟨_ | _, inner⟩ <;> rfl

theorem headD_mem {α : Type} {l : List α} (hne : l ≠ []) (d : α) : l.headD d ∈ l := by
  cases l with
  | nil => exact absurd rfl hne
  | cons a l => exact List.mem_cons_self

section Shape

variable {optional : TsType → TsType} {head : TypeName → String} {good : String → Prop}

theorem wellFormed_shape (hgood : ∀ text, TsType.IsWord text → good text)
    (hoptional : ∀ t : TsType, t.WellFormed good → (optional t).WellFormed good)
    (hhead : ∀ name : TypeName, name.WellFormed → (usual registry).knownName? name ≠ some "Action" →
      good (head name))
    (hscope : ∀ owner ∈ scope.types, TsType.IsWord owner) {type : TypeExpr} (h : type.WellFormed) :
    ((usual registry).shape optional head scope type).WellFormed good := by
  induction h with
  | named hname =>
    rw [shape]
    exact (wellFormed_namedStructure hname hscope).mono hgood
  | @generic name arguments hname hne _ ih =>
    rw [shape, shapeAll_eq_map]
    generalize hparts : arguments.map ((usual registry).shape optional head scope) = parts
    have hparts_ne : parts ≠ [] := by
      rw [← hparts]
      simpa using hne
    have hall : ∀ t ∈ parts, t.WellFormed good := by
      rw [← hparts]
      exact List.forall_mem_map.2 ih
    split
    · exact hoptional _ (hall _ (headD_mem hparts_ne _))
    · cases hknown : (usual registry).knownName? name with
      | none =>
        have hne' : (usual registry).knownName? name ≠ some "Action" := by simp [hknown]
        exact .application (hhead name hname hne') hparts_ne hall
      | some known =>
        rw [Option.bind_some]
        cases hstructure : (usual registry).knownStructure? known parts with
        | none =>
          have hne' : known ≠ "Action" := by
            rintro rfl
            rw [knownStructure?_action] at hstructure
            cases hstructure
          exact .application (hhead name hname (by simpa [hknown] using hne')) hparts_ne hall
        | some t =>
          have hword : TsType.IsWord known := simple_of_knownName? hknown ▸ hname.isWord_simple
          exact wellFormed_knownStructure? hgood hword hparts_ne hall hstructure
  | array _ _ ih =>
    rw [shape]
    exact ih.arrays _
  | nullable _ ih =>
    rw [shape]
    exact hoptional _ ih
  | tuple hne _ _ _ ih =>
    rw [shape, shapeElements_eq_map]
    exact .tuple (by simpa using hne) (List.forall_mem_map.2 ih)

end Shape

theorem wellFormed_written (hscope : ∀ owner ∈ scope.types, TsType.IsWord owner) {type : TypeExpr}
    (h : type.WellFormed) : ((usual registry).written scope type).WellFormed TsType.IsHead :=
  wellFormed_shape (fun _ hword => .inl hword) (fun _ ht => ht.orNull)
    (fun _ hname haction => isHead_unknownHead hname hscope haction) hscope h

/-- The text of a type inside another one is that of its structure. -/
theorem toList_nested (hscope : ∀ owner ∈ scope.types, TsType.IsWord owner) {type : TypeExpr}
    (h : type.WellFormed) :
    ((usual registry).nested scope type).toList = ((usual registry).written scope type).print := by
  induction h with
  | @named name _ =>
    rw [nested, written, shape]
    exact toList_nameText name
  | @generic name arguments hname hne hall ih =>
    rw [nested, written, shape, nestedAll_eq_map, shapeAll_eq_map, ← written]
    have hparts : (arguments.map ((usual registry).nested scope)).map String.toList =
        TsType.printAll (arguments.map ((usual registry).written scope)) := by
      rw [TsType.printAll_eq_map, List.map_map, List.map_map]
      exact List.map_congr_left ih
    have hwf : ∀ t ∈ arguments.map ((usual registry).written scope), t.WellFormed TsType.IsHead := by
      exact List.forall_mem_map.2 fun type htype => wellFormed_written hscope (hall type htype)
    have hparts_ne : arguments.map ((usual registry).written scope) ≠ [] := by simpa using hne
    simp only [List.length_map]
    split
    · cases arguments with
      | nil => exact absurd rfl hne
      | cons first rest =>
        exact TsType.toList_orNull (wellFormed_written hscope (hall first (by simp))) (ih first (by simp))
    · have htemplate : (usual registry).template? name
          (arguments.map ((usual registry).nested scope)).length = none := rfl
      rw [genericText, htemplate]
      simp only
      cases (usual registry).knownName? name with
      | none => exact TsType.toList_application _ hparts
      | some known =>
        have hknown := @toList_knownText? (usual registry) known _ _ hparts_ne hwf hparts
        rw [Option.bind_some, Option.bind_some]
        cases htext : (usual registry).knownText? known
            (arguments.map ((usual registry).nested scope)) <;>
          cases hstructure : (usual registry).knownStructure? known
            (arguments.map ((usual registry).written scope)) <;>
          simp only [htext, hstructure, Option.map_none, Option.map_some, Option.some.injEq,
            reduceCtorEq] at hknown
        · exact TsType.toList_application _ hparts
        · exact hknown
  | array helement hrank ih =>
    rw [nested, written, shape, ← written]
    exact TsType.toList_array (wellFormed_written hscope helement) ih hrank
  | nullable hinner ih =>
    rw [nested, written, shape, ← written]
    exact TsType.toList_orNull (wellFormed_written hscope hinner) ih
  | @tuple elements hne _ hall _ ih =>
    rw [nested, written, shape, nestedElements_eq_map, shapeElements_eq_map, ← written]
    apply TsType.toList_tuple
    rw [TsType.printAll_eq_map, List.map_map, List.map_map]
    exact List.map_congr_left ih

end Translator

end TypeBridge
