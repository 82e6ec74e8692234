import TypeBridge.Proofs.Declaration.Registry
import TypeBridge.Proofs.Output.Layout
import TypeBridge.Proofs.Translation.Agreement

/-!
# The order of sources

In which order some sources are merged decides in which order the namespaces of their declaration file stand,
and in which order the blocks of a namespace. It decides nothing else: what is known of the declarations is
the same, so each of them has the same block.

Results:
* `agrees_of_perm`: what is known of the declarations.
* `perm_declaredBlocks`: the blocks of a namespace.
* `render_of_perm`: whole files.
-/
namespace TypeBridge

/-! ## Declarations -/

namespace DeclarationSet

variable {units others : List SourceUnit}

/-- What is known of some declarations does not depend on the order of their sources. -/
theorem agrees_of_perm (h : units.Perm others) :
    (ofUnits units).registry.Agrees (ofUnits others).registry where
  isEnum name := by
    rw [Bool.eq_iff_iff, isEnum_ofUnits, isEnum_ofUnits]
    exact exists_congr fun _ => and_congr_left' (h.flatMap_right _).mem_iff
  owns owner name := by
    have hplaced := (h.flatMap_right (·.types)).flatMap_right (TypeDeclaration.placed [])
    rw [Bool.eq_iff_iff, owns_ofUnits, owns_ofUnits, TypeDeclaration.placedAll_eq_flatMap,
      TypeDeclaration.placedAll_eq_flatMap]
    exact exists_congr fun _ => and_congr_left' hplaced.mem_iff

/-- The namespaces are the same ones. -/
theorem perm_order (h : units.Perm others) : (ofUnits units).order.Perm (ofUnits others).order := by
  refine (List.perm_ext_iff_of_nodup (nodup_order_ofUnits units) (nodup_order_ofUnits others)).2 fun name => ?_
  rw [(holds_ofUnits units).order, (holds_ofUnits others).order, List.mem_eraseDups, List.mem_eraseDups]
  exact (h.flatMap_right _).mem_iff

end DeclarationSet

namespace Output

open DeclarationSet (groupOf)

/-! ## Blocks -/

section Blocks

variable {options : Options} {registry other : Registry}

theorem interface_eq_of_agrees (h : registry.Agrees other) (scope : Scope) (indent : String)
    (type : TypeDeclaration) :
    interface ⟨options, registry⟩ scope indent type = interface ⟨options, other⟩ scope indent type := by
  have hmember : ∀ member, memberType ⟨options, registry⟩ scope member = memberType ⟨options, other⟩ scope member := by
    intro member
    rw [memberType, memberType, Translator.translate_eq h]
  have hproperty : ∀ indent, property ⟨options, registry⟩ scope indent = property ⟨options, other⟩ scope indent := by
    intro indent
    funext member
    rw [property, property, hmember]
  rw [interface, interface, hproperty]

end Blocks

/-- What a block of a declaration file is for. -/
inductive Declared where
  | enumeration (declaration : Enumeration)
  | type (placed : PlacedType)

/-- The blocks of a namespace, each with what it is for. -/
def declaredBlocks (translator : Translator) (group : NamespaceGroup) : List (Declared × List String) :=
  let indent := bodyIndent translator.options group
  group.enumerations.map (fun declaration =>
    (.enumeration declaration, enumeration translator.options indent declaration)) ++
  (TypeDeclaration.placedAll [] group.types).map fun placed =>
    (.type placed, interface translator (scopeOf group.name placed) indent placed.type)

theorem map_snd_declaredBlocks (translator : Translator) (group : NamespaceGroup) :
    (declaredBlocks translator group).map (·.2) = blocks translator group := by
  rw [declaredBlocks, blocks, interfacesAll_eq_map, List.map_append, List.map_map, List.map_map]
  rfl

theorem perm_declaredBlocks {units others : List SourceUnit} (h : units.Perm others) (options : Options)
    (name : String) :
    (declaredBlocks (translator options (.ofUnits units)) (groupOf units name)).Perm
      (declaredBlocks (translator options (.ofUnits others)) (groupOf others name)) := by
  have henumerations := (h.flatMap_right (·.enumerations)).filter (·.namespaceName = name)
  have hplaced := ((h.flatMap_right (·.types)).filter (·.namespaceName = name)).flatMap_right
    (TypeDeclaration.placed [])
  rw [← TypeDeclaration.placedAll_eq_flatMap, ← TypeDeclaration.placedAll_eq_flatMap] at hplaced
  have hinterface : ∀ placed : PlacedType,
      interface (translator options (.ofUnits units)) (scopeOf name placed) = interface
        (translator options (.ofUnits others)) (scopeOf name placed) := fun placed =>
    funext fun indent => funext fun type =>
      interface_eq_of_agrees (DeclarationSet.agrees_of_perm h) (scopeOf name placed) indent type
  refine (henumerations.map _).append ?_
  simp only [groupOf, hinterface]
  exact hplaced.map _

/-- What it means that two namespaces differ in nothing but the order of their blocks. -/
structure SameBlocks (translator other : Translator) (group group' : NamespaceGroup) : Prop where
  name : group.name = group'.name
  blocks : (declaredBlocks translator group).Perm (declaredBlocks other group')
  lines : ∃ opening closing,
    namespaceLines translator group =
      opening ++ separated ((declaredBlocks translator group).map (·.2)) ++ closing ∧
    namespaceLines other group' =
      opening ++ separated ((declaredBlocks other group').map (·.2)) ++ closing

theorem sameBlocks_of_perm {units others : List SourceUnit} (h : units.Perm others) (options : Options)
    (name : String) :
    SameBlocks (translator options (.ofUnits units)) (translator options (.ofUnits others)) (groupOf units name)
      (groupOf others name) where
  name := rfl
  blocks := perm_declaredBlocks h options name
  lines := by
    refine ⟨openings options 0 (groupOf units name).segments, closings options (groupOf units name).segments.length,
      ?_, ?_⟩
    · rw [map_snd_declaredBlocks]
      rfl
    · rw [map_snd_declaredBlocks]
      rfl

/-! ## Files -/

/-- The text of a file with some lines before its namespaces. -/
def fileText (before : List String) (namespaces : List (List String)) : String :=
  "\n".intercalate (before ++ [""].intercalate namespaces) ++ "\n"

/-- When sources are merged in another order, the same is known of their declarations, and the namespaces of the
declaration file differ in nothing but their order and that of the blocks in each: each enumeration and each type,
those inside of other types included, has the same block. -/
theorem render_of_perm {units others : List SourceUnit} (h : units.Perm others) (options : Options) :
    let set := DeclarationSet.ofUnits units
    let set' := DeclarationSet.ofUnits others
    set.registry.Agrees set'.registry ∧
      (∃ groups, groups.Perm set'.groups ∧
        List.Forall₂ (SameBlocks (translator options set) (translator options set')) set.groups groups) ∧
      (set.order = [] → render options usualSections set = render options usualSections set') ∧
      (set.order ≠ [] → ∃ before,
        render options usualSections set = fileText before (set.groups.map (namespaceLines (translator options set))) ∧
        render options usualSections set' =
          fileText before (set'.groups.map (namespaceLines (translator options set')))) := by
  intro set set'
  have horder : set.order.Perm set'.order := DeclarationSet.perm_order h
  have hgroups : set.groups = set.order.map (groupOf units) := DeclarationSet.groups_ofUnits units
  have hgroups' : set'.groups = set'.order.map (groupOf others) := DeclarationSet.groups_ofUnits others
  refine ⟨DeclarationSet.agrees_of_perm h, ⟨set.order.map (groupOf others), ?_, ?_⟩, fun hempty => ?_, fun hne => ?_⟩
  · rw [hgroups']
    exact horder.map _
  · rw [hgroups, List.forall₂_map_left_iff, List.forall₂_map_right_iff, List.forall₂_same]
    exact fun name _ => sameBlocks_of_perm h options name
  · have hempty' : set'.order = [] := (hempty ▸ horder).nil_eq.symm
    rw [render, render, usualSections]
    simp only [List.flatMap_cons, List.flatMap_nil, Section.lines, hgroups, hgroups', hempty, hempty', List.map_nil]
    rfl
  · have hne' : set'.order ≠ [] := fun hempty => hne (hempty ▸ horder).eq_nil
    exact ⟨preamble options set, render_of_order_ne_nil options hne, render_of_order_ne_nil options hne'⟩

/-- A source with an enumeration and a type. -/
def levelUnit : SourceUnit :=
  { types := [{ name := "Entry", namespaceName := "A", members := [{ name := "Level", type := "Level" }] }]
    enumerations := [{ name := "Level", namespaceName := "A", members := ["Low"] }] }

/-- A source with a type of another namespace. -/
def bookUnit : SourceUnit :=
  { types := [{ name := "Book", namespaceName := "B", members := [{ name := "Level", type := "A.Level" }] }] }

/-- Two sources in the one order and in the other: the namespaces change places, and the same is known. -/
theorem render_of_perm_swapped :
    [levelUnit, bookUnit].Perm [bookUnit, levelUnit] ∧
      (DeclarationSet.ofUnits [levelUnit, bookUnit]).order = ["A", "B"] ∧
      (DeclarationSet.ofUnits [bookUnit, levelUnit]).order = ["B", "A"] ∧
      (DeclarationSet.ofUnits [levelUnit, bookUnit]).registry.Agrees
        (DeclarationSet.ofUnits [bookUnit, levelUnit]).registry ∧
      ∃ groups, groups.Perm (DeclarationSet.ofUnits [bookUnit, levelUnit]).groups ∧
        List.Forall₂
          (SameBlocks (translator {} (.ofUnits [levelUnit, bookUnit])) (translator {} (.ofUnits [bookUnit, levelUnit])))
          (DeclarationSet.ofUnits [levelUnit, bookUnit]).groups groups := by
  have hperm : [levelUnit, bookUnit].Perm [bookUnit, levelUnit] := .swap ..
  have hspec := render_of_perm hperm {}
  exact ⟨hperm, by decide, by decide, hspec.1, hspec.2.1⟩

end Output

end TypeBridge
