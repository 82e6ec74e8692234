import TypeBridge.Proofs.Translation.DottedName
import TypeBridge.Proofs.Translation.Structure
import TypeBridge.Proofs.Text.Substitution

/-!
# Translating by position

A translation takes arguments, parts of names and characters of texts by their positions, most of them without a look at
how many there are. Here every such access can fail, and a translation fails as soon as one of them does. None fails in
the translation of a tree that a text denotes: its generic types have arguments, and its names have parts. The functions
named with `At` are those of the translator once more, access by access; nothing runs them, and they are here for what
is proved of them.

Results:
* `operatorAt?_eq`: operators outside of all brackets.
* `nameAt?_eq`: names, which are looked up again without a qualifier of the base library.
* `fillAt?_eq`, `genericAt?_eq`: templates and generic types.
* `nestedAt?_eq`, `coreAt?_eq`: types inside others, and the marks of a type that is optional as a whole.
* `translate_in_range`: type expressions.
-/
namespace TypeBridge

/-! ## Texts -/

namespace TypeText

/-- As `operatorAtDepth`, from a position of the text on. -/
def operatorAt? (s : List Char) (depth : Int) (position : Nat) : Option Bool :=
  if position < s.length then
    if ['=', '>'] <+: s.drop position then
      if depth = 0 then some true else operatorAt? s depth (position + 2)
    else
      match entryAt? s position with
      | none => none
      | some c =>
        if isOpening c then operatorAt? s (depth + 1) (position + 1)
        else if isClosing c then operatorAt? s (depth - 1) (position + 1)
        else if c = '|' ∧ depth = 0 then some true
        else operatorAt? s depth (position + 1)
  else some false
termination_by s.length - position

/-- As `array`. -/
def arrayAt? (element : String) (rank : Nat) : Option String := do
  let hasOperator ← operatorAt? element.toList 0 0
  return (if hasOperator then "(" ++ element ++ ")" else element) ++ String.join (List.replicate rank "[]")

end TypeText

namespace Template

/-- As `fill`. The first text is taken only where the template asks for it. -/
def fillAt? (template : Template) (texts : List String) : Option String := do
  let text := template.text.toList
  let filled ←
    if Text.contains (placeholder "T") text then
      (entryAt? texts 0).map fun first => Text.replace (placeholder "T") first.toList text
    else some text
  let others := texts.zipIdx.map (fun (text, i) => ("T" ++ toString (i + 1), text)) ++ template.parameters.zip texts
  return .ofList <| others.foldl
    (fun filled (name, text) => Text.replace (placeholder name) text.toList filled) filled

end Template

namespace Translator

section Definitions

variable (translator : Translator)

/-! ## Names -/

/-- As `knownName?`. -/
def knownNameAt? (name : String) : Option (Option String) := do
  let qualifier ← NameText.qualifier? name
  if qualifier = "" then return some name
  else
    let first ← entryAt? (NameText.cutFirst name) 0
    if translator.options.baseNamespaces.contains first then return some (← entryAt? (NameText.cutLast name) (-1))
    else return none

/-- The text of a name whose qualifier is not one of the base library. -/
def declaredAt? (scope : Scope) (name simple : String) : Option String :=
  let parts := NameText.parts name
  if translator.registry.isEnum simple then some simple
  else do
    let owner ← entryAt? parts (-2)
    if translator.registry.owns owner simple then
      match translator.registry.owner? scope simple with
      | some inScope => return inScope ++ "." ++ simple
      | none =>
        let space := parts.dropLast.dropLast
        return if ".".intercalate space ≠ "" ∧ isForeign scope space then name else owner ++ "." ++ simple
    else return if isForeign scope parts.dropLast then name else simple

/-- As `nameText`. A name with a qualifier of the base library is looked up again without it. -/
def nameAt? (scope : Scope) (name : String) : Option String :=
  match _ : NameText.qualifier? name with
  | none => none
  | some qualifier =>
    if _ : qualifier = "" then some (translator.simpleText scope name)
    else
      match _ : entryAt? (NameText.parts name) (-1), entryAt? (NameText.parts name) 0 with
      | some simple, some first =>
        if translator.options.baseNamespaces.contains first then nameAt? {} simple
        else translator.declaredAt? scope name simple
      | _, _ => none
termination_by name.toList.count '.'
decreasing_by exact NameText.count_lt_of_mem_parts ‹_› ‹_› (mem_of_entryAt? ‹_›)

/-! ## Types -/

/-- As `isNullable`. -/
def isNullableAt? (name : String) (count : Nat) : Option Bool :=
  if count = 1 then do return (← translator.knownNameAt? name).any translator.options.nullableWrappers.contains
  else some false

/-- As `knownText?`, from the texts of the arguments, of which each is made only when a rule asks for it. -/
def knownTextAt? (known : String) (arguments : List (Option String)) : Option (Option String) :=
  let options := translator.options
  let count := arguments.length
  if options.orderedCollections.contains known ∧ count = 1 then do
    return some (← TypeText.arrayAt? (← (entryAt? arguments 0).join) 1)
  else if options.keyedCollections.contains known ∧ count = 2 then do
    let key ← (entryAt? arguments 0).join
    let value ← (entryAt? arguments 1).join
    return some (TypeText.application "Record" [key, value])
  else if options.passthroughGenerics.contains known ∧ count = 1 then do
    return some (TypeText.application known [← (entryAt? arguments 0).join])
  else if options.tupleGenerics.contains known then do
    return some (TypeText.tuple (← arguments.allSome))
  else if options.asyncResults.contains known ∧ count = 1 then do
    return some (TypeText.application "Promise" [← (entryAt? arguments 0).join])
  else if known = "Func" then do
    let parameters ← arguments.dropLast.allSome
    let result ← (entryAt? arguments (-1)).join
    return some (TypeText.function parameters result)
  else if known = "Action" then do
    return some (TypeText.function (← arguments.allSome) "void")
  else if known = "Predicate" ∧ count = 1 then do
    return some ("(value: " ++ (← (entryAt? arguments 0).join) ++ ") => boolean")
  else return none

/-- As `unknownText`. -/
def unknownTextAt? (scope : Scope) (name : String) (arguments : List (Option String)) : Option String := do
  let texts ← arguments.allSome
  let qualifier ← NameText.qualifier? name
  let base ← if qualifier = "" then some name else translator.nameAt? scope name
  return TypeText.application base texts

/-- As `genericText`. -/
def genericAt? (scope : Scope) (name : String) (arguments : List (Option String)) : Option String := do
  let known? ← translator.knownNameAt? name
  let template? := (translator.options.templates.get? (known?.getD name)).filter
    (·.parameters.length == arguments.length)
  match template? with
  | some template => template.fillAt? (← arguments.allSome)
  | none =>
    let text? ←
      match known? with
      | some known => translator.knownTextAt? known arguments
      | none => some none
    match text? with
    | some text => return text
    | none => translator.unknownTextAt? scope name arguments

mutual
/-- As `nested`. -/
def nestedAt? (scope : Scope) : TypeExpr → Option String
  | .named name => translator.nameAt? scope name.text
  | .generic name arguments => do
    let texts := nestedAllAt scope arguments
    if ← translator.isNullableAt? name.text texts.length then return TypeText.orNull (← (entryAt? texts 0).join)
    else translator.genericAt? scope name.text texts
  | .array element rank => do TypeText.arrayAt? (← nestedAt? scope element) rank
  | .nullable inner => do return TypeText.orNull (← nestedAt? scope inner)
  | .tuple elements => do return TypeText.tuple (← (nestedElementsAt scope elements).allSome)

def nestedAllAt (scope : Scope) : List TypeExpr → List (Option String)
  | [] => []
  | type :: types => nestedAt? scope type :: nestedAllAt scope types

def nestedElementsAt (scope : Scope) : List (Option String × TypeExpr) → List (Option String)
  | [] => []
  | (_, type) :: elements => nestedAt? scope type :: nestedElementsAt scope elements
end

mutual
/-- As `core`. -/
def coreAt? : TypeExpr → Option (Bool × TypeExpr)
  | .nullable inner => do return (true, (← coreAt? inner).2)
  | .generic name arguments => do
    let cores := coreAllAt arguments
    if ← translator.isNullableAt? name.text cores.length then return (true, (← (entryAt? cores 0).join).2)
    else return (false, .generic name arguments)
  | type => some (false, type)

def coreAllAt : List TypeExpr → List (Option (Bool × TypeExpr))
  | [] => []
  | type :: types => coreAt? type :: coreAllAt types
end

/-- As `text`. -/
def textAt? (scope : Scope) (type : TypeExpr) : Option String := do
  let (isOptional, inner) ← translator.coreAt? type
  let text ← translator.nestedAt? scope inner
  return if isOptional then text ++ String.singleton TypeText.optionalMark else text

/-- As `translate`. -/
def translateAt? (scope : Scope) (expression : String) : Option String :=
  match TypeExpr.parse expression with
  | .ok type => translator.textAt? scope type
  | .error _ => some (.ofList (Text.trim expression.toList))

end Definitions

end Translator

/-! ## Accesses that do not fail -/

theorem allSome_map_some {α : Type} (xs : List α) : (xs.map some).allSome = some xs := by
  rw [List.allSome, List.mapM_map]
  exact (@List.mapM_pure Option _ _ _ _ xs id).trans (congrArg some xs.map_id)

theorem map_eq_map_some {α β : Type} {f : α → Option β} {g : α → β} {xs : List α} (h : ∀ x ∈ xs, f x = some (g x)) :
    xs.map f = (xs.map g).map some := by
  rw [List.map_map]
  exact List.map_congr_left h

theorem join_entryAt?_map_some {α : Type} (xs : List α) (position : Int) :
    (entryAt? (xs.map some) position).join = entryAt? xs position := by
  rw [entryAt?_map]
  cases entryAt? xs position <;> rfl

namespace TypeText

/-- One step of the search for an operator, at a character that begins no arrow. -/
theorem operatorAtDepth_drop {s : List Char} {position : Nat} {c : Char} (h : ¬ ['=', '>'] <+: s.drop position)
    (hc : entryAt? s position = some c) (depth : Int) :
    operatorAtDepth depth (s.drop position) =
      if isOpening c then operatorAtDepth (depth + 1) (s.drop (position + 1))
      else if isClosing c then operatorAtDepth (depth - 1) (s.drop (position + 1))
      else (c == '|' && depth == 0) || operatorAtDepth depth (s.drop (position + 1)) := by
  rw [drop_of_entryAt? hc] at h ⊢
  refine operatorAtDepth.eq_3 depth c _ fun rest heq hrest => h ?_
  rw [heq, hrest]
  exact ⟨rest, rfl⟩

theorem operatorAt?_eq (s : List Char) (depth : Int) (position : Nat) :
    operatorAt? s depth position = some (operatorAtDepth depth (s.drop position)) := by
  fun_induction operatorAt? s depth position with
  | case1 position _ hprefix =>
    obtain ⟨r, hr⟩ := hprefix
    rw [← hr]
    rfl
  | case2 depth position _ hprefix hdepth ih =>
    obtain ⟨r, hr⟩ := hprefix
    have hrest : s.drop (position + 2) = r := by
      rw [← List.drop_drop, ← hr]
      rfl
    rw [ih, hrest, ← hr]
    simp [operatorAtDepth, hdepth]
  | case3 depth position hlt _ hnone =>
    have hsome := (@isSome_entryAt?_iff _ s position).2 (by omega)
    rw [hnone] at hsome
    cases hsome
  | case4 depth position _ hnot c hc hopening ih => rw [ih, operatorAtDepth_drop hnot hc, if_pos hopening]
  | case5 depth position _ hnot c hc hopening hclosing ih =>
    rw [ih, operatorAtDepth_drop hnot hc, if_neg hopening, if_pos hclosing]
  | case6 depth position _ hnot c hc hopening hclosing hbar =>
    rw [operatorAtDepth_drop hnot hc, if_neg hopening, if_neg hclosing]
    simp [hbar]
  | case7 depth position _ hnot c hc hopening hclosing hbar ih =>
    rw [ih, operatorAtDepth_drop hnot hc, if_neg hopening, if_neg hclosing]
    simp [hbar]
  | case8 depth position hle =>
    rw [List.drop_eq_nil_of_le (Nat.le_of_not_lt hle), operatorAtDepth]

theorem arrayAt?_eq (element : String) (rank : Nat) : arrayAt? element rank = some (array element rank) := by
  rw [arrayAt?, operatorAt?_eq]
  rfl

end TypeText

theorem Template.fillAt?_eq (template : Template) {texts : List String} (hne : texts ≠ []) :
    template.fillAt? texts = some (template.fill texts) := by
  obtain ⟨first, rest, rfl⟩ := List.exists_cons_of_ne_nil hne
  simp only [fillAt?]
  split
  · rfl
  · rename_i hnot
    have hfirst : Text.replace (placeholder "T") first.toList template.text.toList = template.text.toList :=
      Text.replace_eq_self (by simpa using hnot) _
    simp only [fill, replacements, List.cons_append, List.foldl_cons, List.headD_cons, hfirst]
    rfl

namespace Translator

variable {translator : Translator} {scope : Scope}

/-! ## Names -/

theorem entryAt?_segments (name : TypeName) : entryAt? name.segments 0 = some name.first := by
  obtain ⟨_ | ⟨first, rest⟩, simple⟩ := name <;> rfl

theorem nameAt?_of_unqualified {text : String} (h : NameText.qualifier? text = some "") :
    translator.nameAt? scope text = some (translator.simpleText scope text) := by
  unfold nameAt?
  split
  · rename_i hnone
    rw [h] at hnone
    cases hnone
  · rename_i hsome
    rw [h, Option.some.injEq] at hsome
    rw [dif_pos hsome.symm]

/-- One step of looking up a name with a qualifier. -/
theorem nameAt?_of_qualified {text qualifier simple first : String}
    (h : NameText.qualifier? text = some qualifier) (hne : qualifier ≠ "")
    (hsimple : entryAt? (NameText.parts text) (-1) = some simple)
    (hfirst : entryAt? (NameText.parts text) 0 = some first) :
    translator.nameAt? scope text =
      if translator.options.baseNamespaces.contains first then translator.nameAt? {} simple
      else translator.declaredAt? scope text simple := by
  conv_lhs => unfold nameAt?
  split
  · rename_i hnone
    rw [h] at hnone
    cases hnone
  · rename_i hsome
    rw [h, Option.some.injEq] at hsome
    rw [dif_neg (hsome ▸ hne)]
    split
    · rename_i simple' first' hsimple' hfirst'
      obtain rfl := Option.some.inj (hsimple.symm.trans hsimple')
      obtain rfl := Option.some.inj (hfirst.symm.trans hfirst')
      rfl
    · rename_i hmissing
      exact absurd hfirst (hmissing _ _ hsimple)

section Name

variable {name : TypeName} (h : name.WellFormed)
include h

theorem qualifierText_eq_empty_iff : name.qualifierText = "" ↔ name.qualifier = [] :=
  NameText.intercalate_eq_empty_iff h (List.Subset.refl _)

theorem knownNameAt?_eq : translator.knownNameAt? name.text = some (translator.knownName? name) := by
  rw [knownNameAt?, NameText.qualifier?_text h, knownName?]
  by_cases hq : name.qualifier = []
  · simp [qualifierText_eq_empty_iff h, hq, NameText.text_of_simple hq]
  · have hempty : name.qualifier.isEmpty = false := List.isEmpty_eq_false_iff.2 hq
    simp only [Option.bind_eq_bind, Option.bind_some, qualifierText_eq_empty_iff h, if_neg hq,
      NameText.entryAt?_cutFirst h, NameText.entryAt?_cutLast h hq, hempty, Bool.false_or, isBase]
    split <;> rfl

/-- A name with a qualifier has a part in front of its last one, which is the end of the qualifier. -/
theorem declaredAt?_eq {owner : String} (howner : name.qualifier.getLast? = some owner)
    (hbase : translator.isBase name = false) :
    translator.declaredAt? scope name.text name.simple = some (translator.qualifiedText scope name owner) := by
  obtain ⟨space, hspace⟩ := List.getLast?_eq_some_iff.1 howner
  have hparts : NameText.parts name.text = space ++ [owner, name.simple] := by
    rw [NameText.parts_text h, TypeName.segments, hspace, List.append_assoc]
    rfl
  have hqualifier : (space ++ [owner, name.simple]).dropLast = name.qualifier := by
    rw [hspace, List.dropLast_append_of_ne_nil (by simp)]
    rfl
  have houter : name.qualifier.dropLast = space := by rw [hspace, List.dropLast_concat]
  have hempty : ".".intercalate space = "" ↔ space = [] :=
    NameText.intercalate_eq_empty_iff h (hspace ▸ List.subset_append_left space [owner])
  simp only [declaredAt?, qualifiedText, hparts, hqualifier, entryAt?_concat_two, houter, hbase,
    Option.bind_eq_bind, Option.bind_some, ne_eq, hempty, Bool.false_eq_true, if_false]
  split
  · rfl
  · split
    · cases translator.registry.owner? scope name.simple <;> cases space <;> simp
    · rfl

theorem nameAt?_eq : translator.nameAt? scope name.text = some (translator.nameText scope name) := by
  have hqualifier := NameText.qualifier?_text h
  by_cases hq : name.qualifier = []
  · rw [(qualifierText_eq_empty_iff h).2 hq] at hqualifier
    rw [nameAt?_of_unqualified hqualifier, NameText.text_of_simple hq, nameText, hq]
    rfl
  · have hlast : entryAt? (NameText.parts name.text) (-1) = some name.simple := by
      rw [NameText.parts_text h, TypeName.segments, entryAt?_concat]
    have hfirst : entryAt? (NameText.parts name.text) 0 = some name.first := by
      rw [NameText.parts_text h, entryAt?_segments]
    obtain ⟨owner, howner⟩ := Option.isSome_iff_exists.1 (List.getLast?_isSome.2 hq)
    rw [nameAt?_of_qualified hqualifier (mt (qualifierText_eq_empty_iff h).1 hq) hlast hfirst, nameText, howner,
      ← isBase]
    cases hbase : translator.isBase name with
    | true =>
      -- without its qualifier, the name has none to be looked up without again
      have hsimple : NameText.qualifier? name.simple = some "" := by
        rw [NameText.qualifier?, if_neg h.simple.dot_not_mem]
      rw [if_pos rfl, nameAt?_of_unqualified hsimple]
      simp only [qualifiedText, hbase, if_true]
    | false => exact declaredAt?_eq h howner hbase

theorem isNullableAt?_eq (count : Nat) :
    translator.isNullableAt? name.text count = some (translator.isNullable name count) := by
  rw [isNullableAt?, isNullable, knownNameAt?_eq h]
  split
  · rename_i hcount
    subst hcount
    cases translator.knownName? name <;> rfl
  · rename_i hcount
    simp [hcount]

end Name

/-! ## Generic types -/

/-- Every rule for the generic types that are known finds the arguments that it asks for. -/
theorem knownTextAt?_eq (known : String) {texts : List String} (hne : texts ≠ []) :
    translator.knownTextAt? known (texts.map some) = some (translator.knownText? known texts) := by
  have hlast : (texts.map some).dropLast = texts.dropLast.map some := List.map_dropLast.symm
  have hresult : entryAt? texts (-1) = some (texts.getLastD "") := entryAt?_last hne ""
  simp only [knownTextAt?, hlast, hresult, allSome_map_some, join_entryAt?_map_some, List.length_map,
    Option.bind_eq_bind, Option.bind_some]
  -- `knownText?` tells one argument from several, and only then asks for the rule
  cases texts with
  | nil => exact absurd rfl hne
  | cons first rest =>
    cases rest with
    | nil => simp [knownText?, entryAt?_cons, TypeText.arrayAt?_eq, apply_ite some]
    | cons second rest =>
      have hsecond : entryAt? (first :: second :: rest) 1 = some second := rfl
      by_cases hkeyed : known ∈ translator.options.keyedCollections ∧ rest = []
      · obtain ⟨hkeyed, rfl⟩ := hkeyed
        simp [knownText?, entryAt?_cons, hsecond, hkeyed]
      · simp [knownText?, hkeyed, apply_ite some]

section Generic

variable {name : TypeName} (h : name.WellFormed)
include h

theorem unknownTextAt?_eq (texts : List String) :
    translator.unknownTextAt? scope name.text (texts.map some) = some (translator.unknownText scope name texts) := by
  simp only [unknownTextAt?, allSome_map_some, NameText.qualifier?_text h, nameAt?_eq h, Option.bind_eq_bind,
    Option.bind_some, qualifierText_eq_empty_iff h, unknownText]
  by_cases hq : name.qualifier = []
  · simp [hq, NameText.text_of_simple hq]
  · simp [hq]

/-- A template, a rule and the name alone find the arguments that they ask for. -/
theorem genericAt?_eq {texts : List String} (hne : texts ≠ []) :
    translator.genericAt? scope name.text (texts.map some) = some (translator.genericText scope name texts) := by
  have htemplate : (translator.options.templates.get? ((translator.knownName? name).getD name.text)).filter
      (·.parameters.length == texts.length) = translator.template? name texts.length := rfl
  simp only [genericAt?, knownNameAt?_eq h, allSome_map_some, List.length_map, htemplate, genericText,
    Option.bind_eq_bind, Option.bind_some]
  cases translator.template? name texts.length with
  | some template => exact Template.fillAt?_eq template hne
  | none =>
    cases translator.knownName? name with
    | none => exact unknownTextAt?_eq h texts
    | some known =>
      simp only [knownTextAt?_eq known hne, Option.bind_some]
      cases translator.knownText? known texts with
      | none => exact unknownTextAt?_eq h texts
      | some text => rfl

end Generic

/-! ## Types -/

theorem nestedAllAt_eq_map (types : List TypeExpr) :
    translator.nestedAllAt scope types = types.map (translator.nestedAt? scope) := by
  induction types with
  | nil => rw [nestedAllAt, List.map_nil]
  | cons type types ih => rw [nestedAllAt, ih, List.map_cons]

theorem nestedElementsAt_eq_map (elements : List (Option String × TypeExpr)) :
    translator.nestedElementsAt scope elements = elements.map fun e => translator.nestedAt? scope e.2 := by
  induction elements with
  | nil => rw [nestedElementsAt, List.map_nil]
  | cons e elements ih => rw [nestedElementsAt, ih, List.map_cons]

theorem coreAllAt_eq_map (types : List TypeExpr) :
    translator.coreAllAt types = types.map translator.coreAt? := by
  induction types with
  | nil => rw [coreAllAt, List.map_nil]
  | cons type types ih => rw [coreAllAt, ih, List.map_cons]

/-- The invariant is that of the trees: names have parts, and generic types have arguments. -/
theorem nestedAt?_eq {type : TypeExpr} (h : type.WellFormed) :
    translator.nestedAt? scope type = some (translator.nested scope type) := by
  induction h with
  | named hname =>
    rw [nestedAt?, nested]
    exact nameAt?_eq hname
  | @generic name arguments hname hne _ ih =>
    have htexts : arguments.map (translator.nestedAt? scope) =
        (arguments.map (translator.nested scope)).map some := map_eq_map_some ih
    have hne' : arguments.map (translator.nested scope) ≠ [] := by simpa using hne
    simp only [nestedAt?, nested_generic, nestedAllAt_eq_map, htexts, List.length_map, isNullableAt?_eq hname,
      join_entryAt?_map_some, Option.bind_eq_bind, Option.bind_some]
    split
    · obtain ⟨first, rest, hcons⟩ := List.exists_cons_of_ne_nil hne'
      rw [hcons]
      rfl
    · exact genericAt?_eq hname hne'
  | array _ _ ih =>
    rw [nestedAt?, nested, ih]
    exact TypeText.arrayAt?_eq _ _
  | nullable _ ih =>
    rw [nestedAt?, nested, ih]
    rfl
  | @tuple elements _ _ _ _ ih =>
    have htexts : (elements.map fun e => translator.nestedAt? scope e.2) =
        (elements.map fun e => translator.nested scope e.2).map some := map_eq_map_some ih
    rw [nestedAt?, nested, nestedElementsAt_eq_map, nestedElements_eq_map, htexts, allSome_map_some]
    rfl

theorem coreAt?_eq {type : TypeExpr} (h : type.WellFormed) :
    translator.coreAt? type = some (translator.core type) := by
  induction h with
  | @generic name arguments hname _ _ ih =>
    have hcores : arguments.map translator.coreAt? = (arguments.map translator.core).map some := map_eq_map_some ih
    simp only [coreAt?, coreAllAt_eq_map, hcores, List.length_map, isNullableAt?_eq hname, join_entryAt?_map_some,
      Option.bind_eq_bind, Option.bind_some]
    cases hnullable : translator.isNullable name arguments.length with
    | true =>
      obtain ⟨argument, rfl, hone⟩ := eq_singleton_of_isNullable hnullable
      rw [core_nullable_eq hone]
      rfl
    | false =>
      rw [core_generic_eq hnullable]
      rfl
  | nullable _ ih =>
    rw [coreAt?, core, ih]
    rfl
  | _ => simp [coreAt?, core]

theorem textAt?_eq {type : TypeExpr} (h : type.WellFormed) :
    translator.textAt? scope type = some (translator.text scope type) := by
  rw [textAt?, coreAt?_eq h, text_eq_cond]
  simp only [Option.bind_eq_bind, Option.bind_some, nestedAt?_eq (wellFormed_core h)]
  cases (translator.core type).1 <;> rfl

/-- The translation of a type expression takes nothing by a position that is not there, whatever the place, the
declarations and the options are: each access to arguments, to parts of names and to characters finds what it asks for,
and what comes out is the translation. -/
theorem translate_in_range (translator : Translator) (scope : Scope) (expression : String) :
    (∀ type, TypeExpr.parse expression = .ok type →
      translator.textAt? scope type = some (translator.text scope type)) ∧
      translator.translateAt? scope expression = some (translator.translate scope expression) := by
  have hparsed : ∀ type, TypeExpr.parse expression = .ok type →
      translator.textAt? scope type = some (translator.text scope type) :=
    fun _ htype => textAt?_eq (TypeExpr.wellFormed_of_parse htype)
  refine ⟨hparsed, ?_⟩
  rw [translateAt?, translate]
  cases hparse : TypeExpr.parse expression with
  | ok type => exact hparsed type hparse
  | error _ => rfl

/-- A function whose parameters are named through the base library and through a declaration. Trees that no text
denotes are another matter: without arguments, a function has no result, and a template may have no first text. -/
theorem translate_in_range_func :
    let translator : Translator := {
      options := { templates := [("Maybe", ⟨[], "Option<\x7bT\x7d>"⟩)] }
      registry := { nested := [("Outer", "Inner")] } }
    let expression := "System.Func<System.Threading.Task, App.Outer.Inner[], int>"
    translator.translateAt? {} expression =
        some "(p0: Promise<void>, p1: Outer.Inner[]) => number" ∧
      (∀ type, TypeExpr.parse expression = .ok type → (translator.textAt? {} type).isSome) ∧
      translator.textAt? {} (.generic ⟨[], "Func"⟩ []) = none ∧
      translator.textAt? {} (.generic ⟨[], "Maybe"⟩ []) = none := by
  intro translator expression
  obtain ⟨hparsed, htext⟩ := translate_in_range translator {} expression
  have htranslate : translator.translate {} expression =
      "(p0: Promise<void>, p1: Outer.Inner[]) => number" := by decide +kernel
  refine ⟨htext.trans (congrArg some htranslate), fun type htype => ?_, by decide +kernel, by decide +kernel⟩
  rw [hparsed type htype]
  rfl

end Translator

end TypeBridge
