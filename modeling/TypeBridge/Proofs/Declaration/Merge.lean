import TypeBridge.Declaration.Set
import TypeBridge.Proofs.Declaration.Placement
import Mathlib.Data.List.Induction
import Mathlib.Data.List.Nodup

/-!
# Merging declarations

Nothing is lost when the declarations of several sources are merged, nothing is repeated, and everything
keeps its order: the order of the namespaces and the two tables stay in step.

Results:
* `Holds.addEnumeration`, `Holds.addType`: one more declaration.
* `Holds.merge`, `holds_ofUnits`: one more source, and all of them.
* `mem_order_ofUnits`: the order names the namespaces that have declarations.
* `perm_enumerations_groups`, `perm_placed_groups`: the groups hold all declarations, each of them once.
-/
namespace TypeBridge

/-- The namespaces of the declarations of a source, in the order in which they are merged. -/
def SourceUnit.namespaces (unit : SourceUnit) : List String :=
  unit.enumerations.map (·.namespaceName) ++ unit.types.map (·.namespaceName)

namespace DeclarationSet

/-- What it means that a set has the given declarations, and that they came from the given namespaces in
this order. -/
structure Holds (set : DeclarationSet) (enumerations : List Enumeration) (types : List TypeDeclaration)
    (names : List String) : Prop where
  order : set.order = names.eraseDups
  enumerations : ∀ name, set.enumerations.list name = enumerations.filter (·.namespaceName = name)
  types : ∀ name, set.types.list name = types.filter (·.namespaceName = name)

variable {set : DeclarationSet} {enumerations : List Enumeration} {types : List TypeDeclaration}
  {names : List String}

/-! ## One declaration -/

/-- A name that is met again is not in the order again. -/
theorem addName_eraseDups (names : List String) (name : String) :
    addName names.eraseDups name = (names ++ [name]).eraseDups := by
  rw [addName, List.eraseDups_append]
  split
  · rename_i hmem
    simp [List.removeAll, List.mem_eraseDups.1 hmem]
  · rename_i hmem
    have hnot : name ∉ names := fun h => hmem (List.mem_eraseDups.2 h)
    simp [List.removeAll, hnot, List.eraseDups_cons]

/-- The list of a namespace in a table with one more declaration. -/
theorem list_extend_filter {α : Type} {nameOf : α → String} {table : Table (List α)} {members : List α}
    (h : ∀ name, table.list name = members.filter (nameOf · = name)) (member : α) (name : String) :
    Table.list (table.extend (nameOf member) member) name =
      (members ++ [member]).filter (nameOf · = name) := by
  rw [Table.list_extend, List.filter_append, h, h]
  by_cases heq : name = nameOf member
  · subst heq
    simp
  · rw [if_neg heq, List.filter_singleton]
    simp [Ne.symm heq]

theorem holds_empty : Holds {} [] [] [] := ⟨rfl, fun _ => rfl, fun _ => rfl⟩

theorem Holds.addEnumeration (h : set.Holds enumerations types names) (enumeration : Enumeration) :
    (set.addEnumeration enumeration).Holds (enumerations ++ [enumeration]) types
      (names ++ [enumeration.namespaceName]) := by
  refine ⟨?_, list_extend_filter h.enumerations enumeration, h.types⟩
  rw [DeclarationSet.addEnumeration, h.order, addName_eraseDups]

theorem Holds.addType (h : set.Holds enumerations types names) (type : TypeDeclaration) :
    (set.addType type).Holds enumerations (types ++ [type]) (names ++ [type.namespaceName]) := by
  refine ⟨?_, h.enumerations, list_extend_filter h.types type⟩
  rw [DeclarationSet.addType, h.order, addName_eraseDups]

/-! ## All declarations -/

theorem Holds.addEnumerations (h : set.Holds enumerations types names) (more : List Enumeration) :
    (more.foldl DeclarationSet.addEnumeration set).Holds (enumerations ++ more) types
      (names ++ more.map (·.namespaceName)) := by
  induction more generalizing set enumerations names with
  | nil => simpa using h
  | cons enumeration more ih =>
    have := ih (h.addEnumeration enumeration)
    simpa using this

theorem Holds.addTypes (h : set.Holds enumerations types names) (more : List TypeDeclaration) :
    (more.foldl DeclarationSet.addType set).Holds enumerations (types ++ more)
      (names ++ more.map (·.namespaceName)) := by
  induction more generalizing set types names with
  | nil => simpa using h
  | cons type more ih =>
    have := ih (h.addType type)
    simpa using this

/-- The declarations of one more source. -/
theorem Holds.merge (h : set.Holds enumerations types names) (unit : SourceUnit) :
    (set.merge unit).Holds (enumerations ++ unit.enumerations) (types ++ unit.types)
      (names ++ unit.namespaces) := by
  have := (h.addEnumerations unit.enumerations).addTypes unit.types
  rwa [List.append_assoc] at this

theorem Holds.mergeAll (h : set.Holds enumerations types names) (units : List SourceUnit) :
    (units.foldl DeclarationSet.merge set).Holds (enumerations ++ units.flatMap (·.enumerations))
      (types ++ units.flatMap (·.types)) (names ++ units.flatMap SourceUnit.namespaces) := by
  induction units generalizing set enumerations types names with
  | nil => simpa using h
  | cons unit units ih =>
    have := ih (h.merge unit)
    simpa using this

/-- The declarations of some sources. -/
theorem holds_ofUnits (units : List SourceUnit) :
    (ofUnits units).Holds (units.flatMap (·.enumerations)) (units.flatMap (·.types))
      (units.flatMap SourceUnit.namespaces) :=
  holds_empty.mergeAll units

/-! ## The groups -/

theorem nodup_addName {order : List String} (h : order.Nodup) (name : String) : (addName order name).Nodup := by
  rw [addName]
  split
  · exact h
  · rename_i hname
    exact h.append (List.nodup_singleton name) (by simpa using hname)

theorem nodup_eraseDups (names : List String) : names.eraseDups.Nodup := by
  induction names using List.reverseRecOn with
  | nil => exact List.nodup_nil
  | append_singleton names name ih =>
    rw [← addName_eraseDups]
    exact nodup_addName ih name

theorem mem_namespaces {unit : SourceUnit} {name : String} :
    name ∈ unit.namespaces ↔
      (∃ e ∈ unit.enumerations, e.namespaceName = name) ∨ ∃ t ∈ unit.types, t.namespaceName = name := by
  rw [SourceUnit.namespaces, List.mem_append, List.mem_map, List.mem_map]

theorem filter_ne_nil_iff {α : Type} {p : α → Bool} {l : List α} :
    l.filter p ≠ [] ↔ ∃ a ∈ l, p a = true := by
  rw [Ne, List.filter_eq_nil_iff]
  simp

/-- The order and the two tables are in step. -/
theorem mem_order_ofUnits (units : List SourceUnit) (name : String) :
    name ∈ (ofUnits units).order ↔
      (ofUnits units).enumerations.list name ≠ [] ∨ (ofUnits units).types.list name ≠ [] := by
  have h := holds_ofUnits units
  rw [h.order, List.mem_eraseDups, h.enumerations, h.types, filter_ne_nil_iff, filter_ne_nil_iff]
  simp only [List.mem_flatMap, mem_namespaces, decide_eq_true_eq]
  constructor
  · rintro ⟨unit, hunit, ⟨e, he, hname⟩ | ⟨t, ht, hname⟩⟩
    · exact .inl ⟨e, ⟨unit, hunit, he⟩, hname⟩
    · exact .inr ⟨t, ⟨unit, hunit, ht⟩, hname⟩
  · rintro (⟨e, ⟨unit, hunit, he⟩, hname⟩ | ⟨t, ⟨unit, hunit, ht⟩, hname⟩)
    · exact ⟨unit, hunit, .inl ⟨e, he, hname⟩⟩
    · exact ⟨unit, hunit, .inr ⟨t, ht, hname⟩⟩

/-- The groups hold the declarations of all sources, each group those of its namespace. -/
theorem groups_ofUnits (units : List SourceUnit) :
    (ofUnits units).groups = (ofUnits units).order.map fun name =>
      { name := name
        enumerations := (units.flatMap (·.enumerations)).filter (·.namespaceName = name)
        types := (units.flatMap (·.types)).filter (·.namespaceName = name) } := by
  rw [groups]
  refine List.map_congr_left fun name _ => ?_
  rw [(holds_ofUnits units).enumerations, (holds_ofUnits units).types]

/-- The group of a namespace for the declarations of some sources. -/
def groupOf (units : List SourceUnit) (name : String) : NamespaceGroup :=
  { name := name
    enumerations := (units.flatMap (·.enumerations)).filter (·.namespaceName = name)
    types := (units.flatMap (·.types)).filter (·.namespaceName = name) }

/-- The namespace of a type has a group. -/
theorem groupOf_mem_groups {units : List SourceUnit} {type : TypeDeclaration}
    (h : type ∈ units.flatMap (·.types)) : groupOf units type.namespaceName ∈ (ofUnits units).groups := by
  obtain ⟨unit, hunit, htype⟩ := List.mem_flatMap.1 h
  rw [groups_ofUnits]
  refine List.mem_map_of_mem (f := groupOf units) ?_
  rw [(holds_ofUnits units).order, List.mem_eraseDups]
  exact List.mem_flatMap.2 ⟨unit, hunit, mem_namespaces.2 (.inr ⟨type, htype, rfl⟩)⟩

/-- Members that are grouped by a name that each of them has are all there, and none of them twice. -/
theorem perm_flatMap_filter {α : Type} (nameOf : α → String) {names : List String} (hnames : names.Nodup)
    {members : List α} (h : ∀ member ∈ members, nameOf member ∈ names) :
    (names.flatMap fun name => members.filter (nameOf · = name)).Perm members := by
  induction names generalizing members with
  | nil =>
    have : members = [] := List.eq_nil_iff_forall_not_mem.2 fun member hmem => List.not_mem_nil (h member hmem)
    subst this
    exact .nil
  | cons name names ih =>
    obtain ⟨hname, hnodup⟩ := List.nodup_cons.1 hnames
    let others := members.filter fun member => !decide (nameOf member = name)
    have hothers : ∀ member ∈ others, nameOf member ∈ names := by
      intro member hmem
      obtain ⟨hmem, hne⟩ := List.mem_filter.1 hmem
      exact (List.mem_cons.1 (h member hmem)).resolve_left (by simpa using hne)
    have hrest : (names.flatMap fun other => members.filter (nameOf · = other)) =
        names.flatMap fun other => others.filter (nameOf · = other) := by
      refine List.flatMap_congr fun other hother => ?_
      rw [List.filter_filter]
      refine List.filter_congr fun member _ => ?_
      by_cases heq : nameOf member = other
      · have hne : other ≠ name := fun heq' => hname (heq' ▸ hother)
        simp [heq, hne]
      · simp [heq]
    rw [List.flatMap_cons, hrest]
    exact ((ih hnodup hothers).append_left _).trans (List.filter_append_perm _ members)

theorem nodup_order_ofUnits (units : List SourceUnit) : (ofUnits units).order.Nodup := by
  rw [(holds_ofUnits units).order]
  exact nodup_eraseDups _

/-- No enumeration is lost or repeated in the groups. -/
theorem perm_enumerations_groups (units : List SourceUnit) :
    ((ofUnits units).groups.flatMap (·.enumerations)).Perm (units.flatMap (·.enumerations)) := by
  rw [groups_ofUnits, List.flatMap_map]
  refine perm_flatMap_filter Enumeration.namespaceName (nodup_order_ofUnits units) fun enumeration h => ?_
  obtain ⟨unit, hunit, hmem⟩ := List.mem_flatMap.1 h
  rw [(holds_ofUnits units).order, List.mem_eraseDups]
  exact List.mem_flatMap.2 ⟨unit, hunit, mem_namespaces.2 (.inl ⟨enumeration, hmem, rfl⟩)⟩

/-- No type is lost or repeated in the groups. -/
theorem perm_types_groups (units : List SourceUnit) :
    ((ofUnits units).groups.flatMap (·.types)).Perm (units.flatMap (·.types)) := by
  rw [groups_ofUnits, List.flatMap_map]
  refine perm_flatMap_filter TypeDeclaration.namespaceName (nodup_order_ofUnits units) fun type h => ?_
  obtain ⟨unit, hunit, hmem⟩ := List.mem_flatMap.1 h
  rw [(holds_ofUnits units).order, List.mem_eraseDups]
  exact List.mem_flatMap.2 ⟨unit, hunit, mem_namespaces.2 (.inr ⟨type, hmem, rfl⟩)⟩

/-- No type inside of others is lost or repeated in the groups either. -/
theorem perm_placed_groups (units : List SourceUnit) :
    ((ofUnits units).groups.flatMap fun group => TypeDeclaration.placedAll [] group.types).Perm
      (units.flatMap fun unit => TypeDeclaration.placedAll [] unit.types) := by
  have hperm := (perm_types_groups units).flatMap_right (TypeDeclaration.placed [])
  simpa only [List.flatMap_assoc, ← TypeDeclaration.placedAll_eq_flatMap] using hperm

/-- The namespaces of some sources are those of their declarations in the order in which they are first met,
none of them twice and none without a declaration. The groups hold, for each namespace, the declarations of
all sources that have it, in their order. Sources may be merged in parts. -/
theorem ofUnits_spec (units : List SourceUnit) :
    (ofUnits units).order.Nodup ∧
      (ofUnits units).order = (units.flatMap SourceUnit.namespaces).eraseDups ∧
      (∀ name, name ∈ (ofUnits units).order ↔
        (ofUnits units).enumerations.list name ≠ [] ∨ (ofUnits units).types.list name ≠ []) ∧
      (∀ unit ∈ units, ∀ name ∈ unit.namespaces, name ∈ (ofUnits units).order) ∧
      (ofUnits units).groups = (ofUnits units).order.map (fun name =>
        { name := name
          enumerations := (units.flatMap (·.enumerations)).filter (·.namespaceName = name)
          types := (units.flatMap (·.types)).filter (·.namespaceName = name) }) ∧
      ∀ more, ofUnits (units ++ more) = more.foldl merge (ofUnits units) := by
  have h := holds_ofUnits units
  refine ⟨?_, h.order, mem_order_ofUnits units, fun unit hunit name hname => ?_, ?_, fun more => ?_⟩
  · rw [h.order]
    exact nodup_eraseDups _
  · rw [h.order, List.mem_eraseDups]
    exact List.mem_flatMap.2 ⟨unit, hunit, hname⟩
  · rw [groups]
    refine List.map_congr_left fun name _ => ?_
    rw [h.enumerations, h.types]
  · exact List.foldl_append

end DeclarationSet

end TypeBridge
