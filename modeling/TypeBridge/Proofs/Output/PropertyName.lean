import TypeBridge.Proofs.Output.Name

/-!
# Names of properties

An interface has a property for each parameter of its type and for each property of it that others see. Their names
are those that the source gives, but for the first letter. Two properties of one interface have the same name when a
property declares a parameter once more, or when names only differ in their first letter: nothing is made of either.

Results:
* `members_unitOfAll`: the members of the types of a source are what their syntax says.
* `map_propertyNames_blocks`: the names of the properties in the blocks of a namespace.
* `nodup_memberNames_iff`: when the names for one type differ.
* `propertyNames_nodup_iff`: when they do for all types of some sources.
-/
namespace TypeBridge.Source

/-! ## Types in sources -/

/-- A type as it stands in a source. -/
structure TypeSyntax where
  header : TypeHeader
  items : List Item

namespace TypeSyntax

/-- The properties of a type, but for those that are named as ones of an interface. -/
def properties (type : TypeSyntax) : List Property :=
  type.items.filterMap fun
    | .property p => if p.isExplicit then none else some p
    | _ => none

/-- The properties of a type that others see. -/
def visible (type : TypeSyntax) : List Property := type.properties.filter (·.isVisible type.header.kind)

/-- The members that a type has. -/
def members (type : TypeSyntax) : List Member :=
  type.header.parameters.map Parameter.member ++ type.visible.map Property.member

/-- What the language asks of the names in a type: no two parameters have the same one, and no two properties. -/
structure IsLegal (type : TypeSyntax) : Prop where
  parameters : (type.header.parameters.map (·.name)).Nodup
  properties : (type.properties.map (·.name)).Nodup

/-- What it means that different members of a type are given properties with different names. -/
structure IsClear (type : TypeSyntax) : Prop where
  /-- No property has the name of a parameter, whatever the case of its first letter. -/
  redeclared : ∀ parameter ∈ type.header.parameters, ∀ property ∈ type.visible,
    Output.propertyName parameter.name ≠ Output.propertyName property.name
  /-- No two parameters differ only in the case of the first letter. -/
  parameters : ∀ parameter ∈ type.header.parameters, ∀ other ∈ type.header.parameters,
    Output.propertyName parameter.name = Output.propertyName other.name → parameter.name = other.name
  /-- No two properties differ only in the case of the first letter. -/
  properties : ∀ property ∈ type.visible, ∀ other ∈ type.visible,
    Output.propertyName property.name = Output.propertyName other.name → property.name = other.name

theorem filterMap_member? (type : TypeSyntax) :
    type.items.filterMap (Item.member? type.header.kind) = type.visible.map Property.member := by
  rw [visible, properties, List.filter_filterMap, List.map_filterMap]
  refine List.filterMap_congr fun item _ => ?_
  cases item with
  | property p =>
    by_cases hexplicit : p.isExplicit = true
    · have hhidden : p.isVisible type.header.kind = false := by simp [Property.isVisible, hexplicit]
      simp [Item.member?, hhidden, hexplicit]
    · by_cases hvisible : p.isVisible type.header.kind = true <;>
        simp [Item.member?, hvisible, hexplicit, Option.filter]
  | namespaceBlock | namespaceLine | type | enumeration | other => rfl

end TypeSyntax

mutual
/-- The types that an item is, with those inside of them. -/
def typeSyntax : Item → List TypeSyntax
  | .type header items => ⟨header, items⟩ :: typeSyntaxAll items
  | _ => []

/-- The types among some items, with those inside of them. -/
def typeSyntaxAll : List Item → List TypeSyntax
  | [] => []
  | item :: items => typeSyntax item ++ typeSyntaxAll items
end

mutual
/-- The types that an item declares, when it may be a namespace. -/
def declaredTypes : Item → List TypeSyntax
  | .namespaceBlock _ items => declaredTypesAll items
  | item => typeSyntax item

/-- The types that the items of a source declare. -/
def declaredTypesAll : List Item → List TypeSyntax
  | [] => []
  | item :: items => declaredTypes item ++ declaredTypesAll items
end

/-- The members of the types among some declarations, those inside of other types included. -/
def membersOf (owners : List String) (types : List TypeDeclaration) : List (List Member) :=
  (TypeDeclaration.placedAll owners types).map (·.type.members)

theorem membersOf_append (owners : List String) (types others : List TypeDeclaration) :
    membersOf owners (types ++ others) = membersOf owners types ++ membersOf owners others := by
  simp only [membersOf, TypeDeclaration.placedAll_eq_flatMap, List.flatMap_append, List.map_append]

theorem membersOf_typesOfAll_of {items : List Item} {namespaceName : String} {owners : List String}
    (h : ∀ item ∈ items, membersOf owners (typesOf namespaceName item) = (typeSyntax item).map TypeSyntax.members) :
    membersOf owners (typesOfAll namespaceName items) = (typeSyntaxAll items).map TypeSyntax.members := by
  induction items with
  | nil => rfl
  | cons item items ih =>
    obtain ⟨hitem, hitems⟩ := List.forall_mem_cons.1 h
    rw [typesOfAll, typeSyntaxAll, membersOf_append, List.map_append, hitem, ih hitems]

theorem membersOf_typesOf (namespaceName : String) (owners : List String) (item : Item) :
    membersOf owners (typesOf namespaceName item) = (typeSyntax item).map TypeSyntax.members := by
  induction item using Item.induction generalizing owners with
  | step item ih =>
    cases item with
    | type header items =>
      have hinner : membersOf (header.name :: owners) (typesOfAll namespaceName items) =
          (typeSyntaxAll items).map TypeSyntax.members :=
        membersOf_typesOfAll_of fun inner hinner => ih inner hinner (header.name :: owners)
      have hmembers := TypeSyntax.filterMap_member? ⟨header, items⟩
      rw [typesOf, membersOf, TypeDeclaration.placedAll, TypeDeclaration.placedAll, List.append_nil,
        TypeDeclaration.placed_eq, List.map_cons, typeSyntax, List.map_cons]
      exact congrArg₂ List.cons (congrArg _ hmembers) hinner
    | namespaceBlock | namespaceLine | enumeration | property | other => rfl

theorem members_unitOfAll_of {items : List Item} {usual : String}
    (h : ∀ item ∈ items, ∀ outer current,
      membersOf [] (unitOf usual outer current item).types = (declaredTypes item).map TypeSyntax.members)
    (outer current : Option String) :
    membersOf [] (unitOfAll usual outer current items).types =
      (declaredTypesAll items).map TypeSyntax.members := by
  induction items generalizing current with
  | nil => rfl
  | cons item items ih =>
    obtain ⟨hitem, hitems⟩ := List.forall_mem_cons.1 h
    -- A line that names a namespace declares no type; it only changes the namespace of the items after it.
    rw [unitOfAll.eq_def, declaredTypesAll, List.map_append]
    split
    · rename_i heq
      cases heq
    · rename_i heq
      obtain ⟨rfl, rfl⟩ := List.cons.inj heq
      exact ih hitems _
    · rename_i heq
      obtain ⟨rfl, rfl⟩ := List.cons.inj heq
      rw [append, membersOf_append, hitem outer current, ih hitems current]

theorem members_unitOf (usual : String) (outer current : Option String) (item : Item) :
    membersOf [] (unitOf usual outer current item).types = (declaredTypes item).map TypeSyntax.members := by
  induction item using Item.induction generalizing outer current with
  | step item ih =>
    cases item with
    | namespaceBlock name items => exact members_unitOfAll_of ih _ _
    | namespaceLine | type | enumeration | property | other => exact membersOf_typesOf _ [] _

/-- The types of a source have the members that their syntax says. -/
theorem members_unitOfAll (usual : String) (outer current : Option String) (items : List Item) :
    membersOf [] (unitOfAll usual outer current items).types =
      (declaredTypesAll items).map TypeSyntax.members :=
  members_unitOfAll_of (fun item _ outer current => members_unitOf usual outer current item) outer current

/-- The declarations of the items of some sources. -/
def merged (options : Options) (programs : List (List Item)) : DeclarationSet :=
  .ofUnits (programs.map (unitOfAll options.defaultNamespace none none))

/-- The members in the groups of declarations are those in the sources. -/
theorem forall_members_iff (options : Options) (programs : List (List Item)) (p : List Member → Prop) :
    (∀ group ∈ (merged options programs).groups, ∀ members ∈ membersOf [] group.types, p members) ↔
      ∀ items ∈ programs, ∀ type ∈ declaredTypesAll items, p type.members := by
  have hperm := (DeclarationSet.perm_placed_groups
    (programs.map (unitOfAll options.defaultNamespace none none))).map (·.type.members)
  rw [List.map_flatMap, List.map_flatMap] at hperm
  have hmembers (items : List Item) :
      (∀ members ∈ membersOf [] (unitOfAll options.defaultNamespace none none items).types, p members) ↔
        ∀ type ∈ declaredTypesAll items, p type.members := by
    rw [members_unitOfAll, List.forall_mem_map]
  simp only [← hmembers]
  rw [← List.forall_mem_flatMap, ← List.forall_mem_map (f := unitOfAll options.defaultNamespace none none)
    (P := fun unit => ∀ members ∈ membersOf [] unit.types, p members), ← List.forall_mem_flatMap]
  exact forall_congr' fun members => imp_congr_left hperm.mem_iff

end TypeBridge.Source

namespace TypeBridge.Output

open Source (Token TypeSyntax spaced)

/-! ## Blocks -/

theorem propertyNames_enumerationEntries {options : Options} {indent : String}
    (h : ∀ c ∈ indent.toList, Text.isIndent c = true) (declaration : Enumeration) :
    propertyNames (Entry.allLines (enumerationEntries options indent declaration)) = [] := by
  have hindent : ∀ entry ∈ enumerationEntries options indent declaration,
      ∀ c ∈ entry.indent.toList, Text.isIndent c = true := by
    rw [enumerationEntries, List.forall_mem_cons, List.forall_mem_singleton]
    exact ⟨h, h⟩
  have hunion : property? (indent ++ unionCode declaration) = none :=
    property?_export h (exported_of_word (by decide) _)
  have hnumeric : property? (indent ++ numericCode options declaration) = none :=
    property?_export h (exported_of_word (by decide) _)
  have hcode : (enumerationEntries options indent declaration).map Entry.line =
      [indent ++ unionCode declaration, indent ++ numericCode options declaration] := rfl
  rw [(names_allLines hindent).2, hcode, propertyNames, List.filterMap_cons_none hunion,
    List.filterMap_cons_none hnumeric, List.filterMap_nil]

theorem propertyNames_interfaceEntries {translator : Translator} {level : Nat}
    (hindent : ∀ c ∈ translator.options.indentUnit.toList, Text.isIndent c = true) (scope : Scope)
    {type : TypeDeclaration} (htype : type.IsWritten) :
    propertyNames (Entry.allLines (interfaceEntries translator scope (indentation translator.options level) type)) =
      type.members.map (propertyName ·.name) := by
  have hlevel := isIndent_indentation hindent
  have hentries : ∀ entry ∈ interfaceEntries translator scope (indentation translator.options level) type,
      ∀ c ∈ entry.indent.toList, Text.isIndent c = true := fun entry hentry c hc =>
    hindent c ((isOf_interfaceEntries scope level (fun _ => id) entry hentry).indent c hc)
  have hopening : property? (indentation translator.options level ++ interfaceCode type) = none :=
    property?_export (hlevel level) (exported_of_word (by decide) _)
  have hclosing := (read_closing (hlevel level)).2
  rw [(names_allLines hentries).2, map_line_interfaceEntries, propertyNames, List.cons_append,
    List.filterMap_cons_none hopening, List.filterMap_append, List.filterMap_cons_none hclosing, List.filterMap_nil,
    List.append_nil, List.filterMap_map, ← List.filterMap_eq_map, ← indentation_succ]
  refine List.filterMap_congr fun member hmember => ?_
  exact (read_propertyCode (hlevel (level + 1)) translator scope (htype.members member hmember).name).2

/-- The names of the properties in the blocks of a namespace are those of the members of its types. -/
theorem map_propertyNames_blocks {translator : Translator} {group : NamespaceGroup}
    (hindent : ∀ c ∈ translator.options.indentUnit.toList, Text.isIndent c = true) (hgroup : group.IsWritten) :
    (blocks translator group).map propertyNames =
      group.enumerations.map (fun _ => []) ++
        (Source.membersOf [] group.types).map (·.map (propertyName ·.name)) := by
  rw [← lines_blockEntries, blockEntries, Source.membersOf, List.map_map, List.map_append, List.map_map, List.map_map,
    List.map_map]
  refine congrArg₂ (· ++ ·) ?_ ?_
  · exact List.map_congr_left fun declaration _ =>
      propertyNames_enumerationEntries (isIndent_indentation hindent _) declaration
  · exact List.map_congr_left fun placed hplaced =>
      propertyNames_interfaceEntries hindent _ (hgroup.types placed hplaced)

theorem nodup_blocks_iff {translator : Translator} {group : NamespaceGroup}
    (hindent : ∀ c ∈ translator.options.indentUnit.toList, Text.isIndent c = true) (hgroup : group.IsWritten) :
    (∀ block ∈ blocks translator group, (propertyNames block).Nodup) ↔
      ∀ members ∈ Source.membersOf [] group.types, (members.map (propertyName ·.name)).Nodup := by
  rw [← List.forall_mem_map, map_propertyNames_blocks hindent hgroup, List.forall_mem_append, List.forall_mem_map,
    List.forall_mem_map]
  exact and_iff_right fun _ _ => List.nodup_nil

/-! ## Names in one type -/

/-- Names that differ are still different after something is done to them just if it makes no two of them the same. -/
theorem nodup_map_map_iff {α : Type} {members : List α} {nameOf : α → String} (h : (members.map nameOf).Nodup)
    (change : String → String) :
    (members.map (change ∘ nameOf)).Nodup ↔
      ∀ member ∈ members, ∀ other ∈ members,
        change (nameOf member) = change (nameOf other) → nameOf member = nameOf other := by
  rw [← List.map_map, List.nodup_map_iff_inj_on h]
  simp only [List.forall_mem_map]

/-- When the names in a type are legal, its properties have different names just if the type is clear. -/
theorem nodup_memberNames_iff {type : TypeSyntax} (h : type.IsLegal) :
    (type.members.map (propertyName ·.name)).Nodup ↔ type.IsClear := by
  have hvisible : (type.visible.map (·.name)).Nodup :=
    h.properties.sublist (List.filter_sublist.map _)
  have hnames : type.members.map (propertyName ·.name) =
      type.header.parameters.map (propertyName ∘ (·.name)) ++ type.visible.map (propertyName ∘ (·.name)) := by
    rw [TypeSyntax.members, List.map_append, List.map_map, List.map_map]
    rfl
  rw [hnames, List.nodup_append, nodup_map_map_iff h.parameters, nodup_map_map_iff hvisible]
  simp only [List.forall_mem_map]
  exact ⟨fun ⟨hparameters, hproperties, hapart⟩ => ⟨hapart, hparameters, hproperties⟩,
    fun hclear => ⟨hclear.parameters, hclear.properties, hclear.redeclared⟩⟩

/-- The properties of each interface that is written for some sources have different names just if no type of the
sources declares a parameter once more and has no names that only differ in the case of their first letters. -/
theorem propertyNames_nodup_iff {options : Options} {programs : List (List Source.Item)}
    (hindent : ∀ c ∈ options.indentUnit.toList, Text.isIndent c = true)
    (hsources : ∀ items ∈ programs, ∃ source : String, Source.items? source.toList = some items)
    (hlegal : ∀ items ∈ programs, ∀ type ∈ Source.declaredTypesAll items, type.IsLegal) :
    (∀ group ∈ (Source.merged options programs).groups,
      ∀ block ∈ blocks (translator options (Source.merged options programs)) group, (propertyNames block).Nodup) ↔
      ∀ items ∈ programs, ∀ type ∈ Source.declaredTypesAll items, type.IsClear := by
  have hwritten : ∀ group ∈ (Source.merged options programs).groups, group.IsWritten := by
    refine isWritten_groups (List.forall_mem_map.2 fun items hitems => ?_)
    obtain ⟨source, hsource⟩ := hsources items hitems
    exact Source.isWritten_of_items? hsource _ none none
  have hblocks : (∀ group ∈ (Source.merged options programs).groups,
      ∀ block ∈ blocks (translator options (Source.merged options programs)) group, (propertyNames block).Nodup) ↔
      ∀ group ∈ (Source.merged options programs).groups, ∀ members ∈ Source.membersOf [] group.types,
        (members.map (propertyName ·.name)).Nodup :=
    forall₂_congr fun group hgroup => nodup_blocks_iff hindent (hwritten group hgroup)
  have hmembers := Source.forall_members_iff options programs fun members =>
    (members.map (propertyName ·.name)).Nodup
  have hclear : (∀ items ∈ programs, ∀ type ∈ Source.declaredTypesAll items,
      (type.members.map (propertyName ·.name)).Nodup) ↔
      ∀ items ∈ programs, ∀ type ∈ Source.declaredTypesAll items, type.IsClear :=
    forall₂_congr fun items hitems => forall₂_congr fun type htype =>
      nodup_memberNames_iff (hlegal items hitems type htype)
  exact hblocks.trans (hmembers.trans hclear)

/-- A source that declares a parameter once more. -/
def redeclaringSource : String := "record P(string Name) \x7b public string Name \x7b get; init; \x7d = Name; \x7d"

/-- The tokens of `redeclaringSource`. -/
def redeclaringTokens : List Token := [
  ⟨[], .word, "record"⟩, spaced .word "P", ⟨[], .mark, "("⟩, ⟨[], .word, "string"⟩, spaced .word "Name",
  ⟨[], .mark, ")"⟩, spaced .mark "\x7b", spaced .word "public", spaced .word "string", spaced .word "Name",
  spaced .mark "\x7b", spaced .word "get", ⟨[], .mark, ";"⟩, spaced .word "init", ⟨[], .mark, ";"⟩,
  spaced .mark "\x7d", spaced .mark "=", spaced .word "Name", ⟨[], .mark, ";"⟩, spaced .mark "\x7d"]

/-- The type in `redeclaringSource`. -/
def redeclaringType : TypeSyntax :=
  { header := {
      lead := [], kind := .recordType, name := "P"
      parameters := [{ attributes := [], type := "string", name := "Name" }] }
    items := [.property {
      lead := [.blank " "], attributes := [], modifiers := ["public"], isExplicit := false
      type := "string", name := "Name" }] }

/-- The items of `redeclaringSource`. -/
def redeclaringItems : List Source.Item := [.type redeclaringType.header redeclaringType.items]

/-- The interface for `redeclaringSource` has two properties with the same name. -/
theorem not_nodup_propertyNames_redeclaringSource :
    Source.items? redeclaringSource.toList = some redeclaringItems ∧ redeclaringType.IsLegal ∧
      ∃ group ∈ (Source.merged {} [redeclaringItems]).groups,
        ∃ block ∈ blocks (translator {} (Source.merged {} [redeclaringItems])) group,
          ¬ (propertyNames block).Nodup := by
  have htokens : Token.ofSource? redeclaringSource.toList = some redeclaringTokens := by decide +kernel
  have hsource : Source.items? redeclaringSource.toList = some redeclaringItems := by
    rw [Source.items?_of_tokens htokens]
    rfl
  have hlegal : redeclaringType.IsLegal := ⟨by decide, by decide⟩
  have hiff : (∀ group ∈ (Source.merged {} [redeclaringItems]).groups,
      ∀ block ∈ blocks (translator {} (Source.merged {} [redeclaringItems])) group, (propertyNames block).Nodup) ↔ _ :=
    propertyNames_nodup_iff (List.all_eq_true.1 (by decide))
      (List.forall_mem_singleton.2 ⟨redeclaringSource, hsource⟩)
      (List.forall_mem_singleton.2 (List.forall_mem_singleton.2 hlegal))
  refine ⟨hsource, hlegal, ?_⟩
  by_contra hnone
  push Not at hnone
  have hclear := hiff.1 hnone _ List.mem_cons_self redeclaringType List.mem_cons_self
  exact hclear.redeclared _ List.mem_cons_self _ List.mem_cons_self rfl

end TypeBridge.Output
