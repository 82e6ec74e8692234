import TypeBridge.Output.File
import TypeBridge.Proofs.Declaration.Placement
import TypeBridge.Proofs.Text.Separator

/-!
# Entries of declaration files

The namespaces of a declaration file as entries: lines of code, each with what a comment before it says.
Comments are taken apart from code here, so that what is said of one needs nothing of the other.

Results:
* `interfacesAll_eq_map`: types inside of types have interfaces like all others.
* `lines_interfaceEntries`, `lines_blockEntries`, `lines_namespaceEntries`: the entries of a declaration
  and of a namespace have its lines.
* `lines_entries`: the same for all namespaces.
* `isOf_entries`: how entries are indented, and where their documentation comes from.
-/
namespace TypeBridge

/-! ## Comments of a set of declarations -/

/-- The comments before the declarations of a group and before the members of its types. -/
def NamespaceGroup.comments (group : NamespaceGroup) : List (List String) :=
  group.enumerations.map (·.comments) ++
    (TypeDeclaration.placedAll [] group.types).flatMap fun placed =>
      placed.type.comments :: placed.type.members.map (·.comments)

/-- The comments before the declarations of a set and before the members of its types. -/
def DeclarationSet.comments (set : DeclarationSet) : List (List String) := set.groups.flatMap (·.comments)

namespace Output

/-! ## Entries -/

/-- A line of code, and what the comment before it says. -/
structure Entry where
  indent : String := ""
  /-- What the comment says of what is deprecated. -/
  deprecation : List String := []
  /-- What the comment says otherwise. -/
  documentation : List String := []
  code : String
  deriving DecidableEq, Repr

namespace Entry

/-- What the comment before an entry says. -/
def remarks (entry : Entry) : List String := entry.deprecation ++ entry.documentation

/-- The code of an entry at its indentation. -/
def line (entry : Entry) : String := entry.indent ++ entry.code

/-- The lines of an entry. -/
def lines (entry : Entry) : List String :=
  commentUnlessEmpty entry.indent entry.remarks ++ [entry.line]

/-- The lines of some entries. -/
def allLines (entries : List Entry) : List String := entries.flatMap lines

/-- An empty line. -/
def blank : Entry := { code := "" }

theorem allLines_append (entries more : List Entry) :
    allLines (entries ++ more) = allLines entries ++ allLines more :=
  List.flatMap_append

theorem allLines_cons (entry : Entry) (entries : List Entry) :
    allLines (entry :: entries) =
      commentUnlessEmpty entry.indent entry.remarks ++ entry.line :: allLines entries := by
  simp [allLines, lines]

/-- Entries without comments are only their code. -/
theorem allLines_of_remarks_eq_nil {entries : List Entry} (h : ∀ entry ∈ entries, entry.remarks = []) :
    allLines entries = entries.map line := by
  rw [allLines, List.map_eq_flatMap]
  refine List.flatMap_congr fun entry hentry => ?_
  rw [lines, h entry hentry]
  rfl

end Entry

/-! ## Enumerations -/

/-- The union of the names of some values. -/
def unionText (members : List String) : String :=
  if members.isEmpty then "never" else " | ".intercalate (members.map fun name => "'" ++ (name ++ "'"))

/-- The names of some values between braces. -/
def bodyText (members : List String) : String :=
  if members.isEmpty then "\x7b\x7d" else "\x7b " ++ (", ".intercalate members ++ " \x7d")

/-- The code of the union for an enumeration. -/
def unionCode (declaration : Enumeration) : String :=
  "export type " ++ (declaration.name ++ (" = " ++ (unionText declaration.members ++ ";")))

/-- The code of the numeric form of an enumeration. -/
def numericCode (options : Options) (declaration : Enumeration) : String :=
  "export enum " ++ (declaration.name ++ (options.enumSuffix ++ (" " ++ bodyText declaration.members)))

/-- The entries of an enumeration. -/
def enumerationEntries (options : Options) (indent : String) (declaration : Enumeration) : List Entry := [
  { indent := indent
    documentation := documentation options declaration.comments
    code := unionCode declaration },
  { indent := indent, code := numericCode options declaration }]

theorem lines_enumerationEntries (options : Options) (indent : String) (declaration : Enumeration) :
    Entry.allLines (enumerationEntries options indent declaration) =
      enumeration options indent declaration := by
  simp only [enumeration, Entry.allLines, enumerationEntries, Entry.lines, Entry.line, Entry.remarks,
    List.flatMap_cons, List.flatMap_nil, List.nil_append, List.append_nil, List.append_assoc, String.append_assoc]
  rfl

/-! ## Types -/

/-- The code of the property for a member. -/
def propertyCode (translator : Translator) (scope : Scope) (member : Member) : String :=
  propertyName member.name ++ (if (memberType translator scope member).1 then "?" else "") ++ ": " ++
    (memberType translator scope member).2 ++ ";"

/-- The entry of a member. -/
def propertyEntry (translator : Translator) (scope : Scope) (indent : String) (member : Member) : Entry :=
  { indent := indent
    deprecation := deprecation translator.options member
    documentation := documentation translator.options member.comments
    code := propertyCode translator scope member }

theorem lines_propertyEntry (translator : Translator) (scope : Scope) (indent : String) (member : Member) :
    (propertyEntry translator scope indent member).lines = property translator scope indent member := by
  simp [Entry.lines, Entry.line, Entry.remarks, propertyEntry, propertyCode, property, String.append_assoc]

/-- The parameters of a generic type between brackets, if it has some. -/
def parametersText (parameters : List String) : String :=
  if parameters.isEmpty then "" else "<" ++ (", ".intercalate parameters ++ ">")

/-- The code that opens the interface for a type. -/
def interfaceCode (type : TypeDeclaration) : String :=
  "export interface " ++ (type.name ++ (parametersText type.parameters ++ " \x7b"))

/-- The entries of the interface for a type, without the types inside of it. -/
def interfaceEntries (translator : Translator) (scope : Scope) (indent : String) (type : TypeDeclaration) :
    List Entry :=
  { indent := indent
    documentation := documentation translator.options type.comments
    code := interfaceCode type } ::
  type.members.map (propertyEntry translator scope (indent ++ translator.options.indentUnit)) ++
  [{ indent := indent, code := "\x7d" }]

theorem map_line_interfaceEntries (translator : Translator) (scope : Scope) (indent : String)
    (type : TypeDeclaration) :
    (interfaceEntries translator scope indent type).map Entry.line =
      (indent ++ interfaceCode type) ::
        type.members.map (fun member =>
          indent ++ translator.options.indentUnit ++ propertyCode translator scope member) ++
        [indent ++ "\x7d"] := by
  rw [interfaceEntries, List.map_append, List.map_cons, List.map_map]
  rfl

theorem lines_interfaceEntries (translator : Translator) (scope : Scope) (indent : String)
    (type : TypeDeclaration) :
    Entry.allLines (interfaceEntries translator scope indent type) =
      interface translator scope indent type := by
  have hmembers : Entry.allLines (type.members.map (propertyEntry translator scope
      (indent ++ translator.options.indentUnit))) =
      type.members.flatMap (property translator scope (indent ++ translator.options.indentUnit)) := by
    rw [Entry.allLines, List.flatMap_map]
    exact List.flatMap_congr fun member _ => lines_propertyEntry translator scope _ member
  rw [interfaceEntries, Entry.allLines, List.flatMap_append, List.flatMap_cons, ← Entry.allLines, hmembers]
  simp only [Entry.lines, Entry.line, Entry.remarks, interface, List.nil_append, List.append_nil,
    List.flatMap_cons, List.flatMap_nil, String.append_assoc, List.append_assoc]
  rfl

/-! ## Types inside of types -/

/-- The scope of the members of a type in a namespace. -/
def scopeOf (namespaceName : String) (placed : PlacedType) : Scope :=
  { declaringType := some placed.type.name
    declaringNamespace := some namespaceName
    enclosingTypes := placed.owners }

theorem interfaces_eq (translator : Translator) (namespaceName indent : String) (owners : List String)
    (type : TypeDeclaration) :
    interfaces translator namespaceName indent owners type =
      interface translator (scopeOf namespaceName ⟨owners, type⟩) indent type ::
        interfacesAll translator namespaceName indent (type.name :: owners) type.nested := by
  cases type
  rw [interfaces]
  rfl

theorem interfacesAll_eq_flatMap (translator : Translator) (namespaceName indent : String)
    (owners : List String) (types : List TypeDeclaration) :
    interfacesAll translator namespaceName indent owners types =
      types.flatMap (interfaces translator namespaceName indent owners) := by
  induction types with
  | nil => rfl
  | cons type types ih => rw [interfacesAll, ih, List.flatMap_cons]

theorem interfaces_eq_map (translator : Translator) (namespaceName indent : String) (owners : List String)
    (type : TypeDeclaration) :
    interfaces translator namespaceName indent owners type =
      (TypeDeclaration.placed owners type).map fun placed =>
        interface translator (scopeOf namespaceName placed) indent placed.type := by
  induction type using TypeDeclaration.induction generalizing owners with
  | step type ih =>
    rw [interfaces_eq, interfacesAll_eq_flatMap, TypeDeclaration.placed_eq,
      TypeDeclaration.placedAll_eq_flatMap, List.map_cons, List.map_flatMap]
    exact congrArg _ (List.flatMap_congr fun inner h => ih inner h (type.name :: owners))

/-- Each type has an interface, wherever it stands, and they are written in the order of a walk. -/
theorem interfacesAll_eq_map (translator : Translator) (namespaceName indent : String) (owners : List String)
    (types : List TypeDeclaration) :
    interfacesAll translator namespaceName indent owners types =
      (TypeDeclaration.placedAll owners types).map fun placed =>
        interface translator (scopeOf namespaceName placed) indent placed.type := by
  rw [interfacesAll_eq_flatMap, TypeDeclaration.placedAll_eq_flatMap, List.map_flatMap]
  exact List.flatMap_congr fun type _ => interfaces_eq_map translator namespaceName indent owners type

/-! ## Namespaces -/

/-- The indentation of what stands in a namespace. -/
def bodyIndent (options : Options) (group : NamespaceGroup) : String :=
  indentation options group.segments.length

/-- The entries of the declarations of a namespace, those of each declaration together. -/
def blockEntries (translator : Translator) (group : NamespaceGroup) : List (List Entry) :=
  let indent := bodyIndent translator.options group
  group.enumerations.map (enumerationEntries translator.options indent) ++
    (TypeDeclaration.placedAll [] group.types).map fun placed =>
      interfaceEntries translator (scopeOf group.name placed) indent placed.type

theorem lines_blockEntries (translator : Translator) (group : NamespaceGroup) :
    (blockEntries translator group).map Entry.allLines = blocks translator group := by
  rw [blockEntries, blocks, List.map_append, List.map_map, List.map_map, interfacesAll_eq_map]
  refine congrArg₂ (· ++ ·) ?_ ?_
  · exact List.map_congr_left fun declaration _ =>
      lines_enumerationEntries translator.options _ declaration
  · exact List.map_congr_left fun placed _ => lines_interfaceEntries translator _ _ placed.type

/-- The code that opens a namespace on a level. -/
def openingCode (level : Nat) (segment : String) : String :=
  (if level = 0 then "declare namespace " else "export namespace ") ++ (segment ++ " \x7b")

theorem openings_eq (options : Options) (level : Nat) (segments : List String) :
    openings options level segments =
      segments.mapIdx fun i segment => indentation options (level + i) ++ openingCode (level + i) segment := by
  induction segments generalizing level with
  | nil => rfl
  | cons segment segments ih =>
    rw [openings, ih, List.mapIdx_cons]
    simp only [Nat.add_zero, Nat.add_assoc, Nat.add_comm 1, String.append_assoc]
    rfl

theorem closings_eq (options : Options) (level : Nat) :
    closings options level =
      (List.range level).reverse.map fun level => indentation options level ++ "\x7d" := by
  induction level with
  | zero => rfl
  | succ level ih => rw [closings, ih, List.range_succ, List.reverse_append]; rfl

/-- The entries of a namespace. -/
def namespaceEntries (translator : Translator) (group : NamespaceGroup) : List Entry :=
  let options := translator.options
  group.segments.mapIdx (fun level segment =>
    { indent := indentation options level, code := openingCode level segment }) ++
  [Entry.blank].intercalate (blockEntries translator group) ++
  (List.range group.segments.length).reverse.map fun level =>
    { indent := indentation options level, code := "\x7d" }

theorem allLines_intercalate (blocks : List (List Entry)) :
    Entry.allLines ([Entry.blank].intercalate blocks) = [""].intercalate (blocks.map Entry.allLines) := by
  cases blocks with
  | nil => rfl
  | cons block blocks =>
    rw [List.map_cons, intercalate_cons, intercalate_cons, Entry.allLines_append, Entry.allLines, Entry.allLines,
      List.flatMap_assoc, List.flatMap_map]
    rfl

theorem lines_namespaceEntries (translator : Translator) (group : NamespaceGroup) :
    Entry.allLines (namespaceEntries translator group) = namespaceLines translator group := by
  rw [namespaceEntries, namespaceLines, Entry.allLines_append, Entry.allLines_append, allLines_intercalate,
    lines_blockEntries, separated, openings_eq, closings_eq, Entry.allLines_of_remarks_eq_nil,
    Entry.allLines_of_remarks_eq_nil, List.mapIdx_eq_zipIdx_map, List.mapIdx_eq_zipIdx_map, List.map_map,
    List.map_map]
  · simp only [Nat.zero_add]
    rfl
  · intro entry hentry
    obtain ⟨level, -, rfl⟩ := List.mem_map.1 hentry
    rfl
  · intro entry hentry
    obtain ⟨level, _, rfl⟩ := List.mem_mapIdx.1 hentry
    rfl

/-- The entries of all namespaces, each with an empty line after it. -/
def entries (translator : Translator) (set : DeclarationSet) : List Entry :=
  set.groups.flatMap fun group => namespaceEntries translator group ++ [Entry.blank]

theorem lines_entries (translator : Translator) (set : DeclarationSet) :
    Entry.allLines (entries translator set) = Section.lines translator set .namespaces := by
  rw [entries, Section.lines, Entry.allLines, List.flatMap_assoc]
  refine List.flatMap_congr fun group _ => ?_
  rw [← Entry.allLines, Entry.allLines_append, lines_namespaceEntries]
  rfl

/-! ## What is known of entries -/

/-- What is known of an entry of a set of declarations. -/
structure Entry.IsOf (options : Options) (comments : List (List String)) (entry : Entry) : Prop where
  indent : ∀ c ∈ entry.indent.toList, c ∈ options.indentUnit.toList
  documentation : entry.documentation = [] ∨
    ∃ group ∈ comments, entry.documentation = Output.documentation options group

theorem mem_indentation {options : Options} {level : Nat} {c : Char}
    (h : c ∈ (indentation options level).toList) : c ∈ options.indentUnit.toList := by
  rw [indentation, String.toList_join, List.mem_flatMap] at h
  obtain ⟨unit, hunit, hc⟩ := h
  exact List.eq_of_mem_replicate hunit ▸ hc

theorem indentation_succ (options : Options) (level : Nat) :
    indentation options (level + 1) = indentation options level ++ options.indentUnit := by
  simp [indentation, List.replicate_succ']

theorem Entry.IsOf.plain (options : Options) (comments : List (List String)) (level : Nat) (code : String) :
    Entry.IsOf options comments { indent := indentation options level, code := code } :=
  ⟨fun _ => mem_indentation, .inl rfl⟩

theorem Entry.IsOf.documented {options : Options} {comments : List (List String)} {group : List String}
    (h : group ∈ comments) (level : Nat) (deprecation : List String) (code : String) :
    Entry.IsOf options comments
      { indent := indentation options level, deprecation := deprecation
        documentation := Output.documentation options group, code := code } :=
  ⟨fun _ => mem_indentation, .inr ⟨group, h, rfl⟩⟩

theorem isOf_enumerationEntries {options : Options} {comments : List (List String)} (level : Nat)
    {declaration : Enumeration} (h : declaration.comments ∈ comments) :
    ∀ entry ∈ enumerationEntries options (indentation options level) declaration, entry.IsOf options comments := by
  rw [enumerationEntries, List.forall_mem_cons, List.forall_mem_singleton]
  exact ⟨.documented h level _ _, .plain options comments level _⟩

theorem isOf_interfaceEntries {translator : Translator} {comments : List (List String)} (scope : Scope)
    (level : Nat) {type : TypeDeclaration}
    (h : ∀ group ∈ type.comments :: type.members.map (·.comments), group ∈ comments) :
    ∀ entry ∈ interfaceEntries translator scope (indentation translator.options level) type,
      entry.IsOf translator.options comments := by
  obtain ⟨htype, hmembers⟩ := List.forall_mem_cons.1 h
  rw [interfaceEntries, List.forall_mem_append, List.forall_mem_cons, List.forall_mem_singleton,
    ← indentation_succ, List.forall_mem_map]
  refine ⟨⟨.documented htype level _ _, fun member hmember => ?_⟩, .plain _ comments level _⟩
  exact .documented (hmembers _ (List.mem_map_of_mem hmember)) (level + 1) _ _

theorem isOf_namespaceEntries {translator : Translator} {comments : List (List String)} {group : NamespaceGroup}
    (h : ∀ some ∈ group.comments, some ∈ comments) :
    ∀ entry ∈ namespaceEntries translator group, entry.IsOf translator.options comments := by
  intro entry hentry
  rw [namespaceEntries, List.mem_append, List.mem_append] at hentry
  rcases hentry with (hentry | hentry) | hentry
  · obtain ⟨level, _, rfl⟩ := List.mem_mapIdx.1 hentry
    exact .plain _ comments level _
  · rcases mem_intercalate hentry with hentry | ⟨block, hblock, hentry⟩
    · obtain rfl := List.mem_singleton.1 hentry
      exact ⟨List.forall_mem_nil _, .inl rfl⟩
    · rw [NamespaceGroup.comments, List.forall_mem_append, List.forall_mem_map, List.forall_mem_flatMap] at h
      rcases List.mem_append.1 hblock with hblock | hblock
      · obtain ⟨declaration, hdeclaration, rfl⟩ := List.mem_map.1 hblock
        exact isOf_enumerationEntries _ (h.1 declaration hdeclaration) entry hentry
      · obtain ⟨placed, hplaced, rfl⟩ := List.mem_map.1 hblock
        exact isOf_interfaceEntries _ _ (h.2 placed hplaced) entry hentry
  · obtain ⟨level, -, rfl⟩ := List.mem_map.1 hentry
    exact .plain _ comments level _

theorem isOf_entries (options : Options) (set : DeclarationSet) :
    ∀ entry ∈ entries (translator options set) set, entry.IsOf options set.comments := by
  intro entry hentry
  obtain ⟨group, hgroup, hentry⟩ := List.mem_flatMap.1 hentry
  rcases List.mem_append.1 hentry with hentry | hentry
  · refine isOf_namespaceEntries (fun comments hcomments => ?_) entry hentry
    exact List.mem_flatMap.2 ⟨group, hgroup, hcomments⟩
  · obtain rfl := List.mem_singleton.1 hentry
    exact ⟨List.forall_mem_nil _, .inl rfl⟩

end Output

end TypeBridge
