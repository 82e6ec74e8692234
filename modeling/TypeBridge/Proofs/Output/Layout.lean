import TypeBridge.Proofs.Declaration.Merge
import TypeBridge.Proofs.Output.Entry

/-!
# The layout of declaration files

The namespaces of a declaration file have a block for each declaration, in a fixed order and with an empty
line between each two, and each block has a line for each member. Nothing of it is lost when the blanks at
the end of the file are.

Results:
* `isNamespace_namespaceLines`: the lines of one namespace.
* `render_of_order_ne_nil`: the text of a file.
* `render_layout`: all of it.
-/
namespace TypeBridge.Output

/-! ## Blocks -/

/-- What it means that a block consists of some lines of code, each with a comment before it or none. -/
inductive Commented : List String → List String → Prop
  | nil : Commented [] []
  | cons (indent : String) (remarks : List String) (code : String) {codes block : List String} :
      Commented codes block →
      Commented (code :: codes) (commentUnlessEmpty indent remarks ++ code :: block)

theorem commented_allLines (entries : List Entry) :
    Commented (entries.map Entry.line) (Entry.allLines entries) := by
  induction entries with
  | nil => exact .nil
  | cons entry entries ih =>
    rw [Entry.allLines_cons]
    exact .cons entry.indent entry.remarks entry.line ih

/-- The code of the block for an enumeration: the union and the numeric form. -/
def IsEnumerationBlock (options : Options) (indent : String) (declaration : Enumeration)
    (block : List String) : Prop :=
  Commented [indent ++ unionCode declaration, indent ++ numericCode options declaration] block

/-- The code of the block for a type: between an opening and a closing line, one line for each member. -/
def IsInterfaceBlock (translator : Translator) (namespaceName indent : String) (placed : PlacedType)
    (block : List String) : Prop :=
  Commented
    ((indent ++ interfaceCode placed.type) ::
      placed.type.members.map (fun member => indent ++ translator.options.indentUnit ++
        propertyCode translator (scopeOf namespaceName placed) member) ++
      [indent ++ "\x7d"])
    block

theorem isEnumerationBlock_enumeration (options : Options) (indent : String) (declaration : Enumeration) :
    IsEnumerationBlock options indent declaration (enumeration options indent declaration) := by
  rw [← lines_enumerationEntries]
  exact commented_allLines (enumerationEntries options indent declaration)

theorem isInterfaceBlock_interface (translator : Translator) (namespaceName indent : String)
    (placed : PlacedType) :
    IsInterfaceBlock translator namespaceName indent placed
      (interface translator (scopeOf namespaceName placed) indent placed.type) := by
  have hcode := commented_allLines
    (interfaceEntries translator (scopeOf namespaceName placed) indent placed.type)
  rwa [lines_interfaceEntries, map_line_interfaceEntries] at hcode

/-! ## Namespaces -/

/-- What the lines of a namespace are. -/
def IsNamespace (translator : Translator) (group : NamespaceGroup) (lines : List String) : Prop :=
  let options := translator.options
  let indent := bodyIndent options group
  let placed := TypeDeclaration.placedAll [] group.types
  TypeDeclaration.IsPreorder group.types placed ∧
    ∃ enumerationBlocks interfaceBlocks : List (List String),
      List.Forall₂ (IsEnumerationBlock options indent) group.enumerations enumerationBlocks ∧
      List.Forall₂ (IsInterfaceBlock translator group.name indent) placed interfaceBlocks ∧
      lines =
        (group.segments.mapIdx fun level segment => indentation options level ++ openingCode level segment) ++
        [""].intercalate (enumerationBlocks ++ interfaceBlocks) ++
        (List.range group.segments.length).reverse.map fun level => indentation options level ++ "\x7d"

theorem isNamespace_namespaceLines (translator : Translator) (group : NamespaceGroup) :
    IsNamespace translator group (namespaceLines translator group) := by
  let indent := bodyIndent translator.options group
  refine ⟨TypeDeclaration.isPreorder_placedAll group.types,
    group.enumerations.map (enumeration translator.options indent),
    interfacesAll translator group.name indent [] group.types, ?_, ?_, ?_⟩
  · rw [List.forall₂_map_right_iff, List.forall₂_same]
    exact fun declaration _ => isEnumerationBlock_enumeration translator.options _ declaration
  · rw [interfacesAll_eq_map, List.forall₂_map_right_iff, List.forall₂_same]
    exact fun placed _ => isInterfaceBlock_interface translator group.name _ placed
  · rw [namespaceLines, openings_eq, closings_eq, separated]
    simp only [Nat.zero_add]
    rfl

/-! ## Text -/

theorem segments_ne_nil (group : NamespaceGroup) : group.segments ≠ [] := by
  rw [NamespaceGroup.segments, Ne, List.map_eq_nil_iff, Text.splitOn_eq_splitOnP]
  exact List.splitOnP_ne_nil _ _

/-- The last line of a namespace closes the outermost one. -/
theorem namespaceLines_eq_concat (translator : Translator) (group : NamespaceGroup) :
    ∃ before, namespaceLines translator group = before ++ ["\x7d"] := by
  obtain ⟨level, hlevel⟩ := Nat.exists_eq_add_one_of_ne_zero
    (mt List.length_eq_zero_iff.1 (segments_ne_nil group))
  have hlast : ∀ level, ∃ before, closings translator.options (level + 1) = before ++ ["\x7d"] := by
    intro level
    rw [closings_eq, List.range_succ_eq_map, List.reverse_cons, List.map_append]
    exact ⟨_, congrArg _ (by simp [indentation])⟩
  obtain ⟨before, hbefore⟩ := hlast level
  exact ⟨_, by rw [namespaceLines, hlevel, hbefore, ← List.append_assoc]⟩

/-- A text without the blanks at its end, when its last character but a line feed is not blank. -/
theorem trimEnd_concat_lineFeed (s : List Char) {c : Char} (h : Text.isBlank c = false) :
    Text.trimEnd (s ++ [c, '\n']) = s ++ [c] := by
  have hfeed : Text.isBlank '\n' = true := rfl
  simp [Text.trimEnd, hfeed, h]

/-- The lines before the namespaces. -/
def preamble (options : Options) (set : DeclarationSet) : List String :=
  Section.lines (translator options set) set .banner ++ Section.lines (translator options set) set .passthrough

/-- Of a text whose last line but an empty one closes a namespace, only the empty line is trimmed. -/
theorem trimEnd_lines (before : List String) :
    Text.trimEnd ("\n".intercalate (before ++ ["\x7d"] ++ [""])).toList =
      ("\n".intercalate (before ++ ["\x7d"])).toList := by
  obtain ⟨text, htext⟩ := exists_intercalate_eq_concat ['\n'] (before.map String.toList) [] '\x7d'
  have hclosed : ("\n".intercalate (before ++ ["\x7d"])).toList = text ++ ['\x7d'] := by
    rw [String.toList_intercalate, List.map_append]
    exact htext
  have hfeed : ("\n".intercalate (before ++ ["\x7d"] ++ [""])).toList = text ++ ['\x7d', '\n'] := by
    rw [String.toList_intercalate, List.map_append, List.map_singleton,
      intercalate_concat _ (by simp), ← String.toList_intercalate, hclosed]
    simp
  rw [hfeed, hclosed, trimEnd_concat_lineFeed text rfl]

/-- The last line of some namespaces closes one. -/
theorem exists_namespaces_eq_concat (translator : Translator) {groups : List NamespaceGroup}
    (h : groups ≠ []) :
    ∃ before, [""].intercalate (groups.map (namespaceLines translator)) = before ++ ["\x7d"] := by
  obtain ⟨groups, group, rfl⟩ := (List.eq_nil_or_concat groups).resolve_left h
  obtain ⟨lines, hlines⟩ := namespaceLines_eq_concat translator group
  rw [List.concat_eq_append, List.map_append, List.map_singleton, hlines]
  exact exists_intercalate_eq_concat [""] _ lines "\x7d"

/-- When there are namespaces, only the empty line after the last one is lost at the end of a file. -/
theorem render_of_order_ne_nil (options : Options) {set : DeclarationSet} (h : set.order ≠ []) :
    render options usualSections set =
      "\n".intercalate (preamble options set ++
        [""].intercalate (set.groups.map (namespaceLines (translator options set)))) ++ "\n" := by
  have hgroups : set.groups ≠ [] := by simpa [DeclarationSet.groups] using h
  obtain ⟨before, hbefore⟩ := exists_namespaces_eq_concat (translator options set) hgroups
  -- The last lines of the file are one that closes a namespace and an empty one, of which only the second is trimmed.
  have hlines : usualSections.flatMap (Section.lines (translator options set) set) =
      preamble options set ++ before ++ ["\x7d"] ++ [""] := by
    have hsection : Section.lines (translator options set) set .namespaces = before ++ ["\x7d"] ++ [""] := by
      rw [← hbefore, ← flatMap_concat [""] (by simpa using hgroups), List.flatMap_map]
      rfl
    rw [usualSections, List.flatMap_cons, List.flatMap_cons, List.flatMap_cons, List.flatMap_nil, hsection,
      preamble]
    simp only [List.append_nil, List.append_assoc]
  rw [render, hlines, trimEnd_lines, hbefore, ← List.append_assoc, ← String.toList_inj, String.toList_ofList,
    String.toList_append]
  rfl

/-! ## Files -/

/-- The namespaces of a declaration file, in order: each has a line that opens it for each of its segments, then
the blocks of its declarations with an empty line between each two, the enumerations before the types and each
type before those inside of it, and then a line that closes it for each segment. A block has one line for each
member. The text of the file ends with them. When the declarations come from sources, each of them has one block,
wherever in the sources it stands. -/
theorem render_layout (options : Options) (set : DeclarationSet) :
    ∃ namespaces : List (List String),
      set.groups.map (·.name) = set.order ∧
      List.Forall₂ (IsNamespace (translator options set)) set.groups namespaces ∧
      Section.lines (translator options set) set .namespaces = namespaces.flatMap (· ++ [""]) ∧
      (set.order ≠ [] → render options usualSections set =
        "\n".intercalate (preamble options set ++ [""].intercalate namespaces) ++ "\n") ∧
      ∀ units, set = DeclarationSet.ofUnits units →
        (set.groups.flatMap (·.enumerations)).Perm (units.flatMap (·.enumerations)) ∧
        (set.groups.flatMap fun group => TypeDeclaration.placedAll [] group.types).Perm
          (units.flatMap fun unit => TypeDeclaration.placedAll [] unit.types) := by
  refine ⟨set.groups.map (namespaceLines (translator options set)), ?_, ?_, ?_,
    render_of_order_ne_nil options, ?_⟩
  · rw [DeclarationSet.groups, List.map_map]
    exact List.map_id set.order
  · rw [List.forall₂_map_right_iff, List.forall₂_same]
    exact fun group _ => isNamespace_namespaceLines (translator options set) group
  · rw [Section.lines, List.flatMap_map]
  · rintro units rfl
    exact ⟨DeclarationSet.perm_enumerations_groups units, DeclarationSet.perm_placed_groups units⟩

end TypeBridge.Output
