import TypeBridge.Proofs.Output.Name

/-!
# Names of declarations

A namespace introduces one name for each type in it and two for each enumeration. A type inside of another one gives
its name without those around it, and no type gives its parameters, so types that a source tells apart may have one
name here. The names differ just if those that the sources give differ and none of them is that of an enumeration
with the suffix of its numeric form.

Results:
* `introducedNames_namespaceLines`: the names that a namespace introduces.
* `nodup_pairs_append_iff`: when they differ.
* `introducedNames_nodup_iff`: the same for the namespaces of some sources.
-/
namespace TypeBridge.Output

open Source (IsName Lexeme)

/-! ## Lines of a namespace -/

theorem isName_append {name suffix : String} (hname : IsName name)
    (hsuffix : ∀ c ∈ suffix.toList, Lexeme.isWordPart c = true) : IsName (name ++ suffix) := by
  obtain ⟨c, r, heq, hc, hr⟩ := hname
  refine ⟨c, r ++ suffix.toList, ?_, hc, List.forall_mem_append.2 ⟨hr, hsuffix⟩⟩
  rw [String.toList_append, heq, List.cons_append]

section Lines

variable {translator : Translator} (hindent : ∀ c ∈ translator.options.indentUnit.toList, Text.isIndent c = true)

include hindent

theorem introduced?_opening (level : Nat) (segment : String) :
    introduced? (indentation translator.options level ++ openingCode level segment) = none := by
  have hlevel := isIndent_indentation hindent level
  unfold openingCode
  split
  · rw [introduced?, unindented_append hlevel (String.toList_append ..) (by decide)]
    rfl
  · rw [introduced?, unindented_append hlevel (String.toList_append ..) (by decide)]
    rfl

theorem introducedNames_enumerationEntries (level : Nat) {declaration : Enumeration}
    (hname : IsName declaration.name)
    (hsuffix : ∀ c ∈ translator.options.enumSuffix.toList, Lexeme.isWordPart c = true) :
    introducedNames ((enumerationEntries translator.options (indentation translator.options level) declaration).map
        Entry.line) =
      [declaration.name, declaration.name ++ translator.options.enumSuffix] := by
  have hlevel := isIndent_indentation hindent level
  have hnumeric := introduced?_numericCode hlevel (isName_append hname hsuffix)
  have hcode :
      (enumerationEntries translator.options (indentation translator.options level) declaration).map Entry.line =
      [indentation translator.options level ++ unionCode declaration,
        indentation translator.options level ++ numericCode translator.options declaration] := rfl
  rw [hcode, introducedNames, List.filterMap_cons_some (introduced?_unionCode hlevel hname),
    List.filterMap_cons_some hnumeric, List.filterMap_nil]

theorem introducedNames_interfaceEntries (level : Nat) (scope : Scope) {type : TypeDeclaration}
    (htype : type.IsWritten) :
    introducedNames ((interfaceEntries translator scope (indentation translator.options level) type).map Entry.line) =
      [type.name] := by
  have hmembers : (type.members.map fun member => indentation translator.options (level + 1) ++
      propertyCode translator scope member).filterMap introduced? = [] := by
    rw [List.filterMap_map, List.filterMap_eq_nil_iff]
    exact fun member hmember => (read_propertyCode (isIndent_indentation hindent (level + 1)) translator scope
      (htype.members member hmember).name).1
  have hclosing := (read_closing (isIndent_indentation hindent level)).1
  rw [map_line_interfaceEntries, introducedNames, List.cons_append,
    List.filterMap_cons_some (introduced?_interfaceCode (isIndent_indentation hindent level) htype.head.name),
    List.filterMap_append, ← indentation_succ, hmembers, List.filterMap_cons_none hclosing,
    List.filterMap_nil, List.append_nil]

theorem introducedNames_blockEntries
    (hsuffix : ∀ c ∈ translator.options.enumSuffix.toList, Lexeme.isWordPart c = true) {group : NamespaceGroup}
    (hgroup : group.IsWritten) :
    (blockEntries translator group).flatMap (fun block => introducedNames (block.map Entry.line)) =
      (group.enumerations.map (·.name)).flatMap (fun name => [name, name ++ translator.options.enumSuffix]) ++
        (TypeDeclaration.placedAll [] group.types).map (·.type.name) := by
  rw [blockEntries, List.flatMap_append, List.flatMap_map, List.flatMap_map, List.flatMap_map, List.map_eq_flatMap]
  refine congrArg₂ (· ++ ·) ?_ ?_
  · exact List.flatMap_congr fun declaration hdeclaration =>
      introducedNames_enumerationEntries hindent _ (hgroup.enumerations declaration hdeclaration).name hsuffix
  · exact List.flatMap_congr fun placed hplaced =>
      introducedNames_interfaceEntries hindent _ _ (hgroup.types placed hplaced)

/-- A namespace introduces a name for each of its types and two for each enumeration. -/
theorem introducedNames_namespaceLines
    (hsuffix : ∀ c ∈ translator.options.enumSuffix.toList, Lexeme.isWordPart c = true) {group : NamespaceGroup}
    (hgroup : group.IsWritten) :
    introducedNames (namespaceLines translator group) =
      (group.enumerations.map (·.name)).flatMap (fun name => [name, name ++ translator.options.enumSuffix]) ++
        (TypeDeclaration.placedAll [] group.types).map (·.type.name) := by
  have hentries : ∀ entry ∈ namespaceEntries translator group, ∀ c ∈ entry.indent.toList, Text.isIndent c = true :=
    fun entry hentry c hc => hindent c ((isOf_namespaceEntries (fun _ => id) entry hentry).indent c hc)
  have hopenings : (group.segments.mapIdx fun level segment =>
      ({ indent := indentation translator.options level, code := openingCode level segment } : Entry)).filterMap
        (introduced? ∘ Entry.line) = [] := by
    rw [List.filterMap_eq_nil_iff]
    intro entry hentry
    obtain ⟨level, _, rfl⟩ := List.mem_mapIdx.1 hentry
    exact introduced?_opening hindent level _
  have hclosings : ((List.range group.segments.length).reverse.map fun level =>
      ({ indent := indentation translator.options level, code := "\x7d" } : Entry)).filterMap
        (introduced? ∘ Entry.line) = [] := by
    rw [List.filterMap_map, List.filterMap_eq_nil_iff]
    exact fun level _ => (read_closing (isIndent_indentation hindent level)).1
  have hblank : [Entry.blank].filterMap (introduced? ∘ Entry.line) = [] := rfl
  rw [← lines_namespaceEntries, (names_allLines hentries).1, introducedNames, List.filterMap_map, namespaceEntries,
    List.filterMap_append, List.filterMap_append, hopenings, hclosings, filterMap_intercalate hblank,
    List.nil_append, List.append_nil, ← introducedNames_blockEntries hindent hsuffix hgroup]
  exact List.flatMap_congr fun block _ => (List.filterMap_map ..).symm

end Lines

/-! ## Names that differ -/

/-- Names and the same with a suffix differ from each other and from others just if all names differ and none is one
with the suffix. -/
theorem nodup_pairs_append_iff (names others : List String) (suffix : String) :
    (names.flatMap (fun name => [name, name ++ suffix]) ++ others).Nodup ↔
      (names ++ others).Nodup ∧ ∀ name ∈ names, name ++ suffix ∉ names ++ others := by
  have hperm : (names.flatMap (fun name => [name, name ++ suffix]) ++ others).Perm
      (names.map (· ++ suffix) ++ (names ++ others)) := by
    have hpairs := List.flatMap_append_perm names (fun name => [name]) (fun name => [name ++ suffix])
    rw [List.flatMap_singleton', ← List.map_eq_flatMap] at hpairs
    rw [← List.append_assoc]
    exact (hpairs.symm.trans List.perm_append_comm).append_right others
  -- Names with the suffix differ from each other as soon as the names do, so that is not asked for once more.
  have hsuffix (h : (names ++ others).Nodup) : (names.map (· ++ suffix)).Nodup :=
    (List.nodup_append.1 h).1.map fun _ _ => (String.append_left_inj suffix).1
  rw [hperm.nodup_iff, List.nodup_append, List.forall_mem_map]
  constructor
  · rintro ⟨-, hnames, hapart⟩
    exact ⟨hnames, fun name hname hmem => hapart name hname _ hmem rfl⟩
  · rintro ⟨hnames, hapart⟩
    refine ⟨hsuffix hnames, hnames, fun name hname other hother heq => ?_⟩
    exact hapart name hname (heq ▸ hother)

end TypeBridge.Output

namespace TypeBridge

/-! ## Names in sources -/

/-- The enumerations of some sources that are in a namespace. -/
def enumerationsIn (units : List SourceUnit) (namespaceName : String) : List Enumeration :=
  (units.flatMap (·.enumerations)).filter (·.namespaceName = namespaceName)

/-- The types of some sources that are in a namespace, without those inside of them. -/
def typesIn (units : List SourceUnit) (namespaceName : String) : List TypeDeclaration :=
  (units.flatMap (·.types)).filter (·.namespaceName = namespaceName)

/-- The names that some sources give to what they declare in a namespace, those of types inside of types included. -/
def namesIn (units : List SourceUnit) (namespaceName : String) : List String :=
  (enumerationsIn units namespaceName).map (·.name) ++
    (TypeDeclaration.placedAll [] (typesIn units namespaceName)).map (·.type.name)

namespace Output

open Source (Token spaced)

/-- The names that are introduced in a namespace differ just if those differ that the sources give to what they
declare in it, and none of them is that of an enumeration with the suffix of its numeric form. -/
theorem introducedNames_nodup_iff {options : Options} {units : List SourceUnit}
    (hindent : ∀ c ∈ options.indentUnit.toList, Text.isIndent c = true)
    (hsuffix : ∀ c ∈ options.enumSuffix.toList, Source.Lexeme.isWordPart c = true)
    (hunits : ∀ unit ∈ units, ∃ source, Source.unit? options source = some unit) :
    ∀ group ∈ (DeclarationSet.ofUnits units).groups,
      ((introducedNames (namespaceLines (translator options (.ofUnits units)) group)).Nodup ↔
        (namesIn units group.name).Nodup ∧
          ∀ declaration ∈ enumerationsIn units group.name,
            declaration.name ++ options.enumSuffix ∉ namesIn units group.name) := by
  intro group hgroup
  have hnames : introducedNames (namespaceLines (translator options (.ofUnits units)) group) = _ :=
    introducedNames_namespaceLines hindent hsuffix (isWritten_groups (Source.isWritten_units hunits) group hgroup)
  rw [DeclarationSet.groups_ofUnits] at hgroup
  obtain ⟨name, -, rfl⟩ := List.mem_map.1 hgroup
  rw [hnames, nodup_pairs_append_iff, List.forall_mem_map]
  rfl

/-- What a source tells one type from others by. -/
structure TypeIdentity where
  namespaceName : String
  /-- The names of the types around it, the innermost first. -/
  owners : List String := []
  name : String
  /-- The number of its parameters. -/
  arity : Nat := 0
  deriving DecidableEq, Repr

/-- What a source tells its types and enumerations from each other by. -/
def identities (unit : SourceUnit) : List TypeIdentity :=
  unit.enumerations.map (fun declaration =>
    { namespaceName := declaration.namespaceName, name := declaration.name }) ++
  (TypeDeclaration.placedAll [] unit.types).map fun placed =>
    { namespaceName := placed.type.namespaceName, owners := placed.owners, name := placed.type.name
      arity := placed.type.parameters.length }

/-- What it means that a source tells all that it declares from each other, and a namespace for it does not. -/
def Clashes (source : String) (unit : SourceUnit) : Prop :=
  Source.unit? {} source = some unit ∧ (identities unit).Nodup ∧
    ∃ group ∈ (DeclarationSet.ofUnits [unit]).groups,
      ¬ (introducedNames (namespaceLines (translator {} (.ofUnits [unit])) group)).Nodup

/-- Two types with one name inside of different ones. -/
def nestedUnit : SourceUnit :=
  { types := [
      { name := "A", namespaceName := "Global", nested := [{ name := "Inner", namespaceName := "Global" }] },
      { name := "B", namespaceName := "Global", nested := [{ name := "Inner", namespaceName := "Global" }] }] }

def nestedTokens : List Token := [
  ⟨[], .word, "class"⟩, spaced .word "A", spaced .mark "\x7b",
  spaced .word "class", spaced .word "Inner", spaced .mark "\x7b", spaced .mark "\x7d", spaced .mark "\x7d",
  spaced .word "class", spaced .word "B", spaced .mark "\x7b",
  spaced .word "class", spaced .word "Inner", spaced .mark "\x7b", spaced .mark "\x7d", spaced .mark "\x7d"]

theorem unit?_nestedUnit :
    Source.unit? {} "class A \x7b class Inner \x7b \x7d \x7d class B \x7b class Inner \x7b \x7d \x7d" =
      some nestedUnit := by
  have htokens : Token.ofSource?
      "class A \x7b class Inner \x7b \x7d \x7d class B \x7b class Inner \x7b \x7d \x7d".toList =
        some nestedTokens := by decide +kernel
  rw [Source.unit?, Source.items?_of_tokens htokens]
  rfl

/-- Two types with one name and different numbers of parameters. -/
def genericUnit : SourceUnit :=
  { types := [
      { name := "R", namespaceName := "Global" },
      { name := "R", namespaceName := "Global", parameters := ["T"] }] }

def genericTokens : List Token := [
  ⟨[], .word, "class"⟩, spaced .word "R", spaced .mark "\x7b", spaced .mark "\x7d",
  spaced .word "class", spaced .word "R", ⟨[], .mark, "<"⟩, ⟨[], .word, "T"⟩, ⟨[], .mark, ">"⟩,
  spaced .mark "\x7b", spaced .mark "\x7d"]

theorem unit?_genericUnit : Source.unit? {} "class R \x7b \x7d class R<T> \x7b \x7d" = some genericUnit := by
  have htokens : Token.ofSource? "class R \x7b \x7d class R<T> \x7b \x7d".toList = some genericTokens := by
    decide +kernel
  rw [Source.unit?, Source.items?_of_tokens htokens]
  rfl

/-- An enumeration, and a type with the name of its numeric form. -/
def suffixUnit : SourceUnit :=
  { types := [{ name := "EEnum", namespaceName := "Global" }]
    enumerations := [{ name := "E", namespaceName := "Global", members := ["X"] }] }

def suffixTokens : List Token := [
  ⟨[], .word, "enum"⟩, spaced .word "E", spaced .mark "\x7b", spaced .word "X", spaced .mark "\x7d",
  spaced .word "class", spaced .word "EEnum", spaced .mark "\x7b", spaced .mark "\x7d"]

theorem unit?_suffixUnit : Source.unit? {} "enum E \x7b X \x7d class EEnum \x7b \x7d" = some suffixUnit := by
  have htokens : Token.ofSource? "enum E \x7b X \x7d class EEnum \x7b \x7d".toList = some suffixTokens := by
    decide +kernel
  rw [Source.unit?, Source.items?_of_tokens htokens]
  rfl

/-- In each of the three ways, names of different types clash. -/
theorem clashes_of_each_kind :
    Clashes "class A \x7b class Inner \x7b \x7d \x7d class B \x7b class Inner \x7b \x7d \x7d" nestedUnit ∧
      Clashes "class R \x7b \x7d class R<T> \x7b \x7d" genericUnit ∧
      Clashes "enum E \x7b X \x7d class EEnum \x7b \x7d" suffixUnit := by
  refine ⟨⟨unit?_nestedUnit, by decide, _, List.mem_cons_self, by decide +kernel⟩,
    ⟨unit?_genericUnit, by decide, _, List.mem_cons_self, by decide +kernel⟩,
    ⟨unit?_suffixUnit, by decide, _, List.mem_cons_self, by decide +kernel⟩⟩

/-- The names of one enumeration and one type clash when the type has the name of the numeric form. -/
theorem not_nodup_introducedNames_suffix :
    Source.unit? {} "enum E \x7b X \x7d class EEnum \x7b \x7d" = some suffixUnit ∧
      ∃ group ∈ (DeclarationSet.ofUnits [suffixUnit]).groups,
        (namesIn [suffixUnit] group.name).Nodup ∧
          ¬ (introducedNames (namespaceLines (translator {} (.ofUnits [suffixUnit])) group)).Nodup := by
  let group : NamespaceGroup :=
    { name := "Global", enumerations := suffixUnit.enumerations, types := suffixUnit.types }
  have hgroup : group ∈ (DeclarationSet.ofUnits [suffixUnit]).groups := List.mem_singleton_self group
  have hiff := introducedNames_nodup_iff (List.all_eq_true.1 (by decide)) (List.all_eq_true.1 (by decide))
    (List.forall_mem_singleton.2 ⟨_, unit?_suffixUnit⟩) group hgroup
  refine ⟨unit?_suffixUnit, group, hgroup, by decide, fun hnodup => ?_⟩
  exact (hiff.1 hnodup).2 _ List.mem_cons_self (by decide)

end Output

end TypeBridge
