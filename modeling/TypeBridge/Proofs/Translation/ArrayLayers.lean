import TypeBridge.Proofs.Translation.Optionality

/-!
# Arrays of translated types

The text of an array begins with the text of its elements, which needs parentheses when an operator stands outside of
all brackets there. That is so for optional types and for functions, and for no others: the text of every other type is
a name or ends with the bracket that closes what it opens. So of arrays of arrays, written with brackets or as ordered
collections, only the innermost can need parentheses.

Results:
* `hasTopLevelOperator_nested`: which types need parentheses.
* `nested_wrap`, `arrayElement_layers`: one layer of an array, and many of them.
* `nested_layers`: the text of a type in arrays, and that its brackets match.
-/
namespace TypeBridge

theorem TsType.isOperator_orNull (t : TsType) : t.orNull.isOperator = true := by
  fun_induction TsType.orNull t with
  | case1 parameters result _ => rfl
  | case2 t hfunction hends =>
    cases t with
    | union left right => rfl
    | function parameters result => exact absurd rfl (hfunction parameters result)
    | _ => cases hends
  | case3 => rfl

namespace TypeExpr

/-- A layer around a type with which it becomes that of an array: brackets of some rank, or a collection. -/
inductive ArrayLayer where
  | brackets (rank : Nat)
  | collection (name : TypeName)

/-- A type in a layer. -/
def ArrayLayer.wrap : ArrayLayer → TypeExpr → TypeExpr
  | .brackets rank, inner => .array inner rank
  | .collection name, inner => .generic name [inner]

/-- How many levels of arrays a layer is translated to. -/
def ArrayLayer.levels : ArrayLayer → Nat
  | .brackets rank => rank
  | .collection _ => 1

/-- What it means that a layer is one that the rules know as that of an array. -/
def ArrayLayer.IsOrdered (translator : Translator) : ArrayLayer → Prop
  | .brackets _ => True
  | .collection name =>
    ∃ known, translator.knownName? name = some known ∧ known ∈ translator.options.orderedCollections

/-- A type in layers, the outermost of which is the first. -/
def inLayers : List ArrayLayer → TypeExpr → TypeExpr
  | [], inner => inner
  | layer :: layers, inner => layer.wrap (inLayers layers inner)

/-- The levels of all layers. -/
def totalLevels : List ArrayLayer → Nat
  | [] => 0
  | layer :: layers => totalLevels layers + layer.levels

theorem WellFormed.of_wrap {layer : ArrayLayer} {inner : TypeExpr} (h : (layer.wrap inner).WellFormed) :
    inner.WellFormed := by
  cases layer with
  | brackets rank => cases h with | array helement _ => exact helement
  | collection name => cases h with | generic _ _ hall => exact hall inner (List.mem_singleton_self inner)

theorem WellFormed.of_inLayers {layers : List ArrayLayer} {inner : TypeExpr} (h : (inLayers layers inner).WellFormed) :
    inner.WellFormed := by
  induction layers with
  | nil => exact h
  | cons layer layers ih => exact ih (WellFormed.of_wrap h)

end TypeExpr

namespace Translator

open TypeExpr (ArrayLayer inLayers totalLevels)

variable {registry : Registry} {scope : Scope}

/-! ## Types that need parentheses -/

/-- The text of a type is that of a union or of a function just when the type is optional or that of a function. -/
theorem isOperator_written {type : TypeExpr} (h : type.WellFormed) :
    ((usual registry).written scope type).isOperator = true ↔
      (usual registry).IsOptional type ∨ (usual registry).isDelegate type = true := by
  rw [← core_fst_iff]
  cases hfst : ((usual registry).core type).1 with
  | false => rw [written, (kind_shape h hfst).2, or_iff_right Bool.false_ne_true]
  | true =>
    rw [written, shape_core TsType.orNull_orNull h, hfst, cond_true, TsType.isOperator_orNull]
    exact iff_of_true rfl (.inl rfl)

theorem hasTopLevelOperator_nested (hscope : ∀ owner ∈ scope.types, TsType.IsWord owner) {type : TypeExpr}
    (h : type.WellFormed) :
    TypeText.hasTopLevelOperator ((usual registry).nested scope type) = true ↔
      (usual registry).IsOptional type ∨ (usual registry).isDelegate type = true := by
  rw [TsType.hasTopLevelOperator_of_print (wellFormed_written hscope h) (toList_nested hscope h),
    isOperator_written h]

/-- The brackets of the text of a type match. -/
theorem matched_nested (hscope : ∀ owner ∈ scope.types, TsType.IsWord owner) {type : TypeExpr}
    (h : type.WellFormed) : TsType.Matched ((usual registry).nested scope type) := by
  have hbracketed := TsType.bracketed_print (@wellFormed_written scope registry hscope type h)
  rw [← toList_nested hscope h] at hbracketed
  exact hbracketed.matched

/-! ## Layers -/

/-- No rule but that for arrays applies to a collection. -/
theorem ordered_spec {known : String} (h : known ∈ (usual registry).options.orderedCollections) :
    known ≠ "Nullable" ∧ isDelegateName known 1 = false := by
  have hall : ∀ known ∈ ({} : Options).orderedCollections,
      known ≠ "Nullable" ∧ isDelegateName known 1 = false := by decide
  exact hall known h

/-- A layer makes an array of what is in it. -/
theorem nested_wrap {layer : ArrayLayer} (h : layer.IsOrdered (usual registry)) (inner : TypeExpr) :
    (usual registry).nested scope (layer.wrap inner) =
      TypeText.array ((usual registry).nested scope inner) layer.levels := by
  cases layer with
  | brackets rank => rw [ArrayLayer.wrap, nested, ArrayLayer.levels]
  | collection name =>
    obtain ⟨known, hknown, hmem⟩ := h
    have hnullable : ¬ (usual registry).isNullable name 1 = true := by
      rw [isNullable_iff, hknown, Option.some.injEq]
      exact fun heq => (ordered_spec hmem).1 heq.2
    have harray : (usual registry).knownText? known [(usual registry).nested scope inner] =
        some (TypeText.array ((usual registry).nested scope inner) 1) := by
      rw [knownText?]
      exact if_pos (List.contains_iff_mem.2 hmem)
    rw [ArrayLayer.wrap, nested, nestedAll_eq_map, List.map_singleton]
    simp only [List.length_singleton]
    rw [if_neg hnullable, genericText, show (usual registry).template? name [_].length = none from rfl]
    simp only
    rw [hknown, Option.bind_some, harray, Option.getD_some, ArrayLayer.levels]

/-- No layer needs parentheses. -/
theorem not_operator_wrap {layer : ArrayLayer} (h : layer.IsOrdered (usual registry)) (inner : TypeExpr) :
    ¬ ((usual registry).IsOptional (layer.wrap inner) ∨ (usual registry).isDelegate (layer.wrap inner) = true) := by
  rintro (⟨_, hmarks⟩ | hdelegate)
  · cases layer with
    | brackets rank => cases hmarks
    | collection name =>
      obtain ⟨known, hknown, hmem⟩ := h
      cases hmarks with
      | wrapper hname =>
        rw [hknown, Option.some.injEq] at hname
        exact (ordered_spec hmem).1 hname
  · cases layer with
    | brackets rank => cases hdelegate
    | collection name =>
      obtain ⟨known, hknown, hmem⟩ := h
      rw [ArrayLayer.wrap, isDelegate, hknown, Option.any_some, List.length_singleton, (ordered_spec hmem).2] at hdelegate
      cases hdelegate

theorem arrayElement_wrap (hscope : ∀ owner ∈ scope.types, TsType.IsWord owner) {layer : ArrayLayer}
    {inner : TypeExpr} (hlayer : layer.IsOrdered (usual registry)) (h : (layer.wrap inner).WellFormed) :
    TypeText.arrayElement ((usual registry).nested scope (layer.wrap inner)) =
      (usual registry).nested scope (layer.wrap inner) := by
  rw [TypeText.arrayElement, if_neg]
  rw [hasTopLevelOperator_nested hscope h]
  exact not_operator_wrap hlayer inner

/-- What stands before the brackets of an array of a type in layers is what does so for the type itself, with the
brackets of all the layers: by induction on these, since none of them needs parentheses. -/
theorem arrayElement_layers (hscope : ∀ owner ∈ scope.types, TsType.IsWord owner) {layers : List ArrayLayer}
    {inner : TypeExpr} (hlayers : ∀ layer ∈ layers, layer.IsOrdered (usual registry))
    (h : (inLayers layers inner).WellFormed) :
    TypeText.arrayElement ((usual registry).nested scope (inLayers layers inner)) =
      TypeText.arrayElement ((usual registry).nested scope inner) ++
        String.join (List.replicate (totalLevels layers) "[]") := by
  induction layers with
  | nil => simp [inLayers, totalLevels]
  | cons layer layers ih =>
    obtain ⟨hlayer, hrest⟩ := List.forall_mem_cons.1 hlayers
    have hinner : (inLayers layers inner).WellFormed := TypeExpr.WellFormed.of_wrap h
    calc TypeText.arrayElement ((usual registry).nested scope (layer.wrap (inLayers layers inner)))
        = TypeText.array ((usual registry).nested scope (inLayers layers inner)) layer.levels :=
          (arrayElement_wrap hscope hlayer h).trans (nested_wrap hlayer _)
      _ = TypeText.arrayElement ((usual registry).nested scope inner) ++
            (String.join (List.replicate (totalLevels layers) "[]") ++
              String.join (List.replicate layer.levels "[]")) := by
          rw [TypeText.array, ih hrest hinner, String.append_assoc]
      _ = TypeText.arrayElement ((usual registry).nested scope inner) ++
            String.join (List.replicate (totalLevels (layer :: layers)) "[]") := by
          rw [← String.join_append, ← List.replicate_add, totalLevels]

/-- The brackets of the text of a type match, and an operator stands outside of them just when the type is optional
or that of a function. In layers of arrays the text of a type is followed by the brackets of all layers, and it
is in parentheses, once, just when it has such an operator. -/
theorem nested_layers (hscope : ∀ owner ∈ scope.types, TsType.IsWord owner) {source : String} {type : TypeExpr}
    (h : TypeExpr.parse source = .ok type) :
    TsType.Matched ((usual registry).nested scope type) ∧
      (TypeText.hasTopLevelOperator ((usual registry).nested scope type) = true ↔
        (usual registry).IsOptional type ∨ (usual registry).isDelegate type = true) ∧
      ∀ (layers : List ArrayLayer) (inner : TypeExpr), layers ≠ [] →
        (∀ layer ∈ layers, layer.IsOrdered (usual registry)) → type = inLayers layers inner →
        (usual registry).nested scope type =
          (if (usual registry).IsOptional inner ∨ (usual registry).isDelegate inner = true then
              "(" ++ (usual registry).nested scope inner ++ ")"
            else (usual registry).nested scope inner) ++
          String.join (List.replicate (totalLevels layers) "[]") := by
  have hwf := TypeExpr.wellFormed_of_parse h
  refine ⟨matched_nested hscope hwf, hasTopLevelOperator_nested hscope hwf, ?_⟩
  rintro layers inner hne hlayers rfl
  have harray := arrayElement_layers hscope hlayers hwf
  have hinner : TypeText.arrayElement ((usual registry).nested scope inner) =
      if (usual registry).IsOptional inner ∨ (usual registry).isDelegate inner = true then
        "(" ++ (usual registry).nested scope inner ++ ")"
      else (usual registry).nested scope inner := by
    rw [TypeText.arrayElement]
    exact if_congr (hasTopLevelOperator_nested hscope (hwf.of_inLayers)) rfl rfl
  obtain ⟨layer, rest, rfl⟩ := List.exists_cons_of_ne_nil hne
  have houter := arrayElement_wrap hscope (hlayers layer List.mem_cons_self) hwf
  rw [← hinner, ← harray]
  exact houter.symm

/-- Three levels of arrays of functions, two of them written with brackets, in one pair of parentheses. -/
theorem nested_layers_func :
    let type : TypeExpr := .generic ⟨["System"], "List"⟩ [.array (.generic ⟨[], "Func"⟩ [.named ⟨[], "int"⟩]) 2]
    (usual {}).nested {} type = "(() => number)[][][]" ∧ TsType.Matched ((usual {}).nested {} type) := by
  intro type
  have htokens : TypeExpr.tokens "System.List<Func<int>[,]>" =
      .ok [.name "System", .dot, .name "List", .less, .name "Func", .less, .name "int", .greater, .openBracket, .comma,
        .closeBracket, .greater] := by decide +kernel
  have hparse : TypeExpr.parse "System.List<Func<int>[,]>" = .ok type := TypeExpr.parse_of_tokens htokens rfl
  have hscope : ∀ owner ∈ ({} : Scope).types, TsType.IsWord owner := by decide
  let layers : List ArrayLayer := [.collection ⟨["System"], "List"⟩, .brackets 2]
  have hlayers : ∀ layer ∈ layers, layer.IsOrdered (usual {}) :=
    List.forall_mem_cons.2 ⟨⟨"List", rfl, by decide⟩, List.forall_mem_singleton.2 trivial⟩
  obtain ⟨hmatched, -, harray⟩ := @nested_layers {} {} hscope _ type hparse
  refine ⟨?_, hmatched⟩
  rw [harray layers (.generic ⟨[], "Func"⟩ [.named ⟨[], "int"⟩]) (by simp [layers]) hlayers rfl,
    if_pos (.inr rfl)]
  decide +kernel

end Translator

end TypeBridge
