import TypeBridge.Proofs.Declaration.Merge

/-!
# What is known of declarations

The registry of the declarations of some sources says which names are those of enumerations, and which types
have which others directly inside of them. It is asked for a type by its name alone: neither the namespace of
the type nor the types around it count.

Results:
* `perm_members_foldl_extend`: a table of lists has the members that were added to it.
* `mem_ownerships`: the types directly inside of others, wherever those stand.
* `isEnum_ofUnits`, `owns_ofUnits`: what the registry of some sources knows.

At the end the same is said source by source, with what it means for further sources.
-/
namespace TypeBridge

/-! ## Members of tables -/

namespace Table

variable {α : Type}

/-- The members of all lists of a table. -/
def members (table : Table (List α)) : List α := table.flatMap (·.2)

theorem perm_members_extend (name : String) (member : α) (table : Table (List α)) :
    (members (table.extend name member)).Perm (table.members ++ [member]) := by
  induction table with
  | nil => exact .refl _
  | cons entry rest ih =>
    obtain ⟨known, list⟩ := entry
    by_cases heq : known = name
    · subst heq
      have hextend : extend known member ((known, list) :: rest) = (known, list ++ [member]) :: rest := by
        simp [extend, insert, Table.list, get?]
      rw [hextend, members, members, List.flatMap_cons, List.flatMap_cons, List.append_assoc, List.append_assoc]
      exact List.perm_append_comm.append_left list
    · have hextend : extend name member ((known, list) :: rest) = (known, list) :: extend name member rest := by
        have hlookup : ((known, list) :: rest).lookup name = rest.lookup name := by
          rw [List.lookup_cons, beq_false_of_ne (Ne.symm heq)]
        rw [extend, insert, if_neg heq, extend, Table.list, Table.list, get?, get?, hlookup]
      rw [hextend, members, members, List.flatMap_cons, List.flatMap_cons, List.append_assoc]
      exact ih.append_left list

theorem perm_members_foldl_extend (nameOf : α → String) (more : List α) (table : Table (List α)) :
    (members (more.foldl (fun table member => table.extend (nameOf member) member) table)).Perm
      (table.members ++ more) := by
  induction more generalizing table with
  | nil => rw [List.foldl_nil, List.append_nil]
  | cons member more ih =>
    have hfirst := (perm_members_extend (nameOf member) member table).append_right more
    rw [List.append_assoc, List.singleton_append] at hfirst
    exact (ih _).trans hfirst

end Table

/-! ## Types inside of types -/

namespace TypeDeclaration

/-- Whether a type called `name` is directly inside of a type. -/
def hasNested (type : TypeDeclaration) (name : String) : Bool := type.nested.any (·.name == name)

theorem hasNested_iff {type : TypeDeclaration} {name : String} :
    type.hasNested name = true ↔ ∃ inner ∈ type.nested, inner.name = name := by
  simp [hasNested]

theorem ownershipsIn_eq_flatMap (owner : String) (types : List TypeDeclaration) :
    ownershipsIn owner types = types.flatMap fun type => (owner, type.name) :: type.ownerships := by
  induction types with
  | nil => rfl
  | cons type types ih => rw [ownershipsIn, ih, List.flatMap_cons]

theorem ownerships_eq (type : TypeDeclaration) :
    type.ownerships = type.nested.flatMap fun inner => (type.name, inner.name) :: inner.ownerships := by
  cases type
  rw [ownerships, ownershipsIn_eq_flatMap]

/-- What is directly inside of what, for a type and all types inside of it. -/
theorem mem_ownerships {owner name : String} (owners : List String) (type : TypeDeclaration) :
    (owner, name) ∈ type.ownerships ↔
      ∃ found ∈ placed owners type, found.type.name = owner ∧ found.type.hasNested name = true := by
  induction type using TypeDeclaration.induction generalizing owners with
  | step type ih =>
    rw [ownerships_eq, placed_eq, placedAll_eq_flatMap, List.mem_flatMap]
    constructor
    · rintro ⟨inner, hinner, hmem⟩
      rcases List.mem_cons.1 hmem with heq | hmem
      · obtain ⟨rfl, rfl⟩ := Prod.mk.inj heq
        exact ⟨_, List.mem_cons_self, rfl, hasNested_iff.2 ⟨inner, hinner, rfl⟩⟩
      · obtain ⟨found, hfound, howns⟩ := (ih inner hinner (type.name :: owners)).1 hmem
        exact ⟨found, List.mem_cons_of_mem _ (List.mem_flatMap.2 ⟨inner, hinner, hfound⟩), howns⟩
    · rintro ⟨found, hfound, howns⟩
      rcases List.mem_cons.1 hfound with rfl | hfound
      · obtain ⟨inner, hinner, rfl⟩ := hasNested_iff.1 howns.2
        exact ⟨inner, hinner, List.mem_cons.2 (.inl (Prod.ext howns.1.symm rfl))⟩
      · obtain ⟨inner, hinner, hfound⟩ := List.mem_flatMap.1 hfound
        exact ⟨inner, hinner,
          List.mem_cons_of_mem _ ((ih inner hinner (type.name :: owners)).2 ⟨found, hfound, howns⟩)⟩

/-- A type is inside of the types around it at any depth, and counts as inside of itself. -/
inductive IsInside (part : TypeDeclaration) : TypeDeclaration → Prop
  | self : IsInside part part
  | deeper {inner type : TypeDeclaration} : inner ∈ type.nested → IsInside part inner → IsInside part type

/-- The types inside of a type are those that are listed with it. -/
theorem isInside_iff_mem_placed {part type : TypeDeclaration} (owners : List String) :
    IsInside part type ↔ ∃ found ∈ placed owners type, found.type = part := by
  induction type using TypeDeclaration.induction generalizing owners with
  | step type ih =>
    rw [placed_eq, placedAll_eq_flatMap]
    constructor
    · intro h
      cases h with
      | self => exact ⟨_, List.mem_cons_self, rfl⟩
      | @deeper inner _ hinner hpart =>
        obtain ⟨found, hfound, heq⟩ := (ih inner hinner (type.name :: owners)).1 hpart
        exact ⟨found, List.mem_cons_of_mem _ (List.mem_flatMap.2 ⟨inner, hinner, hfound⟩), heq⟩
    · rintro ⟨found, hfound, rfl⟩
      rcases List.mem_cons.1 hfound with rfl | hfound
      · exact .self
      · obtain ⟨inner, hinner, hfound⟩ := List.mem_flatMap.1 hfound
        exact .deeper hinner ((ih inner hinner (type.name :: owners)).2 ⟨found, hfound, rfl⟩)

end TypeDeclaration

/-! ## Registries -/

namespace DeclarationSet

theorem enumerations_foldl_addType (types : List TypeDeclaration) (set : DeclarationSet) :
    (types.foldl addType set).enumerations = set.enumerations := by
  induction types generalizing set with
  | nil => rfl
  | cons type types ih => exact ih (set.addType type)

theorem types_foldl_addEnumeration (enumerations : List Enumeration) (set : DeclarationSet) :
    (enumerations.foldl addEnumeration set).types = set.types := by
  induction enumerations generalizing set with
  | nil => rfl
  | cons enumeration enumerations ih => exact ih (set.addEnumeration enumeration)

theorem merge_enumerations (set : DeclarationSet) (unit : SourceUnit) :
    (set.merge unit).enumerations =
      unit.enumerations.foldl (fun table member => table.extend member.namespaceName member)
        set.enumerations := by
  rw [merge, enumerations_foldl_addType]
  exact (List.foldl_hom DeclarationSet.enumerations fun _ _ => rfl).symm

theorem merge_types (set : DeclarationSet) (unit : SourceUnit) :
    (set.merge unit).types =
      unit.types.foldl (fun table member => table.extend member.namespaceName member) set.types := by
  rw [merge, ← types_foldl_addEnumeration unit.enumerations set]
  exact (List.foldl_hom DeclarationSet.types fun _ _ => rfl).symm

theorem perm_members_mergeAll (units : List SourceUnit) (set : DeclarationSet) :
    (units.foldl merge set).enumerations.members.Perm
        (set.enumerations.members ++ units.flatMap (·.enumerations)) ∧
      (units.foldl merge set).types.members.Perm (set.types.members ++ units.flatMap (·.types)) := by
  induction units generalizing set with
  | nil => simp
  | cons unit units ih =>
    obtain ⟨henumerations, htypes⟩ := ih (set.merge unit)
    rw [merge_enumerations] at henumerations
    rw [merge_types] at htypes
    rw [List.foldl_cons, List.flatMap_cons, List.flatMap_cons, ← List.append_assoc, ← List.append_assoc]
    exact ⟨henumerations.trans ((Table.perm_members_foldl_extend _ _ _).append_right _),
      htypes.trans ((Table.perm_members_foldl_extend _ _ _).append_right _)⟩

/-- The tables for some sources have the declarations of all of them. -/
theorem perm_members_ofUnits (units : List SourceUnit) :
    (ofUnits units).enumerations.members.Perm (units.flatMap (·.enumerations)) ∧
      (ofUnits units).types.members.Perm (units.flatMap (·.types)) :=
  perm_members_mergeAll units {}

/-- A name is known as that of an enumeration when an enumeration of one of the sources has it. -/
theorem isEnum_ofUnits (units : List SourceUnit) (name : String) :
    (ofUnits units).registry.isEnum name = true ↔
      ∃ enumeration ∈ units.flatMap (·.enumerations), enumeration.name = name := by
  have hperm := ((perm_members_ofUnits units).1.map (·.name)).mem_iff (a := name)
  rw [Table.members, List.map_flatMap] at hperm
  rw [Registry.isEnum, List.contains_iff_mem, registry, hperm, List.mem_map]

/-- A type is known to be inside of another one when a source has a type with the name of the other one, in
whatever namespace and inside of whatever types, and one with its name directly inside of that. -/
theorem owns_ofUnits (units : List SourceUnit) (owner name : String) :
    (ofUnits units).registry.owns owner name = true ↔
      ∃ found ∈ TypeDeclaration.placedAll [] (units.flatMap (·.types)),
        found.type.name = owner ∧ found.type.hasNested name = true := by
  have hperm := ((perm_members_ofUnits units).2.flatMap_right TypeDeclaration.ownerships).mem_iff
    (a := (owner, name))
  rw [Table.members, List.flatMap_assoc] at hperm
  rw [Registry.owns, List.contains_iff_mem, registry, hperm, TypeDeclaration.placedAll_eq_flatMap,
    List.mem_flatMap]
  constructor
  · rintro ⟨type, htype, hmem⟩
    obtain ⟨found, hfound, howns⟩ := (TypeDeclaration.mem_ownerships [] type).1 hmem
    exact ⟨found, List.mem_flatMap.2 ⟨type, htype, hfound⟩, howns⟩
  · rintro ⟨found, hfound, howns⟩
    obtain ⟨type, htype, hfound⟩ := List.mem_flatMap.1 hfound
    exact ⟨type, htype, (TypeDeclaration.mem_ownerships [] type).2 ⟨found, hfound, howns⟩⟩

/-- What sources declare is declared by them together with further ones. -/
theorem isEnum_foldl_merge {units : List SourceUnit} {name : String} (more : List SourceUnit)
    (h : (ofUnits units).registry.isEnum name = true) :
    (more.foldl merge (ofUnits units)).registry.isEnum name = true := by
  rw [ofUnits, ← List.foldl_append, ← ofUnits, isEnum_ofUnits, List.flatMap_append]
  obtain ⟨enumeration, hmem, hname⟩ := (isEnum_ofUnits units name).1 h
  exact ⟨enumeration, List.mem_append_left _ hmem, hname⟩

theorem owns_foldl_merge {units : List SourceUnit} {owner name : String} (more : List SourceUnit)
    (h : (ofUnits units).registry.owns owner name = true) :
    (more.foldl merge (ofUnits units)).registry.owns owner name = true := by
  rw [ofUnits, ← List.foldl_append, ← ofUnits, owns_ofUnits, List.flatMap_append,
    TypeDeclaration.placedAll_eq_flatMap, List.flatMap_append]
  obtain ⟨found, hmem, howns⟩ := (owns_ofUnits units owner name).1 h
  rw [TypeDeclaration.placedAll_eq_flatMap] at hmem
  exact ⟨found, List.mem_append_left _ hmem, howns⟩

/-- The registry of some sources knows just what they declare: the names of their enumerations, and which types,
at any depth, have which others directly inside of them. It goes on knowing that, whatever sources are merged
after them. -/
theorem registry_exact (units : List SourceUnit) (owner name : String) :
    ((ofUnits units).registry.isEnum name = true ↔
      ∃ unit ∈ units, ∃ enumeration ∈ unit.enumerations, enumeration.name = name) ∧
    ((ofUnits units).registry.owns owner name = true ↔
      ∃ unit ∈ units, ∃ type ∈ unit.types, ∃ part : TypeDeclaration, part.IsInside type ∧ part.name = owner ∧
        ∃ inner ∈ part.nested, inner.name = name) ∧
    ∀ more : List SourceUnit,
      ((ofUnits units).registry.isEnum name = true →
        (more.foldl merge (ofUnits units)).registry.isEnum name = true) ∧
      ((ofUnits units).registry.owns owner name = true →
        (more.foldl merge (ofUnits units)).registry.owns owner name = true) := by
  refine ⟨?_, ?_, fun more => ⟨isEnum_foldl_merge more, owns_foldl_merge more⟩⟩
  · rw [isEnum_ofUnits]
    simp only [List.mem_flatMap]
    constructor
    · rintro ⟨enumeration, ⟨unit, hunit, hmem⟩, hname⟩
      exact ⟨unit, hunit, enumeration, hmem, hname⟩
    · rintro ⟨unit, hunit, enumeration, hmem, hname⟩
      exact ⟨enumeration, ⟨unit, hunit, hmem⟩, hname⟩
  · rw [owns_ofUnits, TypeDeclaration.placedAll_eq_flatMap]
    simp only [List.mem_flatMap]
    constructor
    · rintro ⟨found, ⟨type, ⟨unit, hunit, htype⟩, hfound⟩, hname, hnested⟩
      have hinside := (TypeDeclaration.isInside_iff_mem_placed []).2 ⟨found, hfound, rfl⟩
      exact ⟨unit, hunit, type, htype, found.type, hinside, hname, TypeDeclaration.hasNested_iff.1 hnested⟩
    · rintro ⟨unit, hunit, type, htype, part, hinside, hname, hnested⟩
      obtain ⟨found, hfound, rfl⟩ := (TypeDeclaration.isInside_iff_mem_placed []).1 hinside
      exact ⟨found, ⟨type, ⟨unit, hunit, htype⟩, hfound⟩, hname, TypeDeclaration.hasNested_iff.2 hnested⟩

/-- Types of one name in two namespaces, one of them inside of another type, share what the registry knows of
them, and a source without declarations takes nothing away. -/
theorem registry_exact_namesakes :
    let units : List SourceUnit := [
      { types := [{ name := "A", namespaceName := "M", nested := [
          { name := "User", namespaceName := "M", nested := [{ name := "Address", namespaceName := "M" }] }] }] },
      { types := [{ name := "User", namespaceName := "N" }]
        enumerations := [{ name := "Color", namespaceName := "N" }] }]
    (ofUnits units).registry.owns "User" "Address" = true ∧
      ((ofUnits units).merge {}).registry.owns "User" "Address" = true ∧
      ((ofUnits units).merge {}).registry.isEnum "Color" = true := by
  intro units
  obtain ⟨-, howns, hmore⟩ := registry_exact units "User" "Address"
  have hknown : (ofUnits units).registry.owns "User" "Address" = true :=
    howns.2 ⟨_, List.mem_cons_self, _, List.mem_cons_self, _, .deeper List.mem_cons_self .self, rfl, _,
      List.mem_cons_self, rfl⟩
  have hcolor : (ofUnits units).registry.isEnum "Color" = true :=
    (registry_exact units "User" "Color").1.2
      ⟨_, List.mem_cons_of_mem _ List.mem_cons_self, _, List.mem_cons_self, rfl⟩
  exact ⟨hknown, (hmore [{}]).2 hknown, ((registry_exact units "User" "Color").2.2 [{}]).1 hcolor⟩

end DeclarationSet

end TypeBridge
