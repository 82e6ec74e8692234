import TypeBridge.Collection.Discovery
import TypeBridge.Proofs.Files.Tree
import Mathlib.Data.List.Lex
import Mathlib.Data.List.Sort
import Mathlib.Data.String.Basic

/-!
# The list of the sources

Which files below a root are listed, and in which order. The list has each source once, the names of their paths
increase from one to the next, and nothing but the files below the root has a part in it: neither the place of the root
nor the order of the entries of directories.

Results:
* `Path.namesBefore_iff`: the order of the list is that of lists of names.
* `mem_sourceNames_iff`, `mem_placesBelow`: what is listed.
* `sourceNames_increasing`: the order.
* `sourceFiles_exact`: both, and that they do not depend on where the root is.
-/
namespace TypeBridge

/-- Names are compared one by one, and what has no further name comes first. -/
theorem Path.namesBefore_iff (first second : List String) : namesBefore first second = true ↔ first ≤ second := by
  induction first generalizing second with
  | nil => simp [namesBefore, ← not_lt]
  | cons a first ih =>
    cases second with
    | nil => simp [namesBefore, ← not_lt]
    | cons b second =>
      rw [namesBefore, le_iff_eq_or_lt, List.cons_lt_cons_iff]
      split
      · rename_i h
        subst h
        simp [ih, le_iff_eq_or_lt]
      · rename_i h
        simp [h]

/-- Whether some names lead from a path to a file. -/
def FileSystem.HasFileBelow (system : FileSystem) (root : Path) (names : List String) : Prop :=
  ∃ tree bytes, system.tree? root = .ok tree ∧ tree.get? names = some (.file bytes)

theorem FileSystem.hasDistinctNames_tree? {system : FileSystem} (h : system.tree.HasDistinctNames) {path : Path}
    {tree : FileTree} (htree : system.tree? path = .ok tree) : tree.HasDistinctNames := by
  rw [tree?] at htree
  split at htree
  · cases htree
  · split at htree
    · rename_i hget
      cases htree
      exact h.get? hget
    · cases htree

namespace Collection

/-- What it means that some names are those of a source: the last one has the suffix of sources, and no other one is
left out. -/
def IsSourcePlace (excluded names : List String) : Prop :=
  ∃ directories name, names = directories ++ [name] ∧ sourceSuffix.toList <:+ name.toList ∧
    ∀ directory ∈ directories, directory ∉ excluded

theorem isSource_iff {excluded names : List String} :
    isSource excluded names = true ↔ IsSourcePlace excluded names := by
  rw [isSource, isExcluded, isSourceName, Bool.and_eq_true, Bool.not_eq_true']
  constructor
  · rintro ⟨hname, hexcluded⟩
    split at hname
    · rename_i name hlast
      refine ⟨names.dropLast, name, ?_, List.isSuffixOf_iff_suffix.1 hname, by simpa using hexcluded⟩
      exact (List.dropLast_append_getLast? name hlast).symm
    · cases hname
  · rintro ⟨directories, name, rfl, hname, hexcluded⟩
    rw [List.getLast?_concat, List.dropLast_concat]
    exact ⟨List.isSuffixOf_iff_suffix.2 hname, by simpa using hexcluded⟩

/-! ## The names below the root -/

variable {excluded : List String} {tree : FileTree}

/-- The names of one source come before those of the next one. -/
theorem sourceNames_increasing (h : tree.HasDistinctNames) : (sourceNames excluded tree).Pairwise (· < ·) := by
  have hsorted : (sourceNames excluded tree).Pairwise fun first second => Path.namesBefore first second = true := by
    refine List.pairwise_mergeSort (fun a b c hab hbc => ?_) (fun a b => ?_) _
    · rw [Path.namesBefore_iff] at *
      exact le_trans hab hbc
    · rw [Bool.or_eq_true, Path.namesBefore_iff, Path.namesBefore_iff]
      exact le_total a b
  have hnodup : (sourceNames excluded tree).Nodup :=
    (List.mergeSort_perm _ _).nodup_iff.2 ((FileTree.nodup_places h).filter _)
  refine (hsorted.and hnodup).imp fun {first second} hboth => ?_
  exact lt_of_le_of_ne ((Path.namesBefore_iff first second).1 hboth.1) hboth.2

theorem mem_sourceNames_iff (h : tree.HasDistinctNames) {names : List String} :
    names ∈ sourceNames excluded tree ↔
      (∃ bytes, tree.get? names = some (.file bytes)) ∧ IsSourcePlace excluded names := by
  rw [mem_sourceNames, isSource_iff]
  refine and_congr_left fun _ => ?_
  simp only [List.mem_map, Prod.exists, exists_and_right, exists_eq_right]
  exact exists_congr fun bytes => FileTree.mem_files_iff h

/-! ## The paths -/

variable {system : FileSystem} {root : Path}

/-- The names below a root of the sources that are listed. There are none if the root is no directory. -/
def placesBelow (excluded : List String) (system : FileSystem) (root : Path) : List (List String) :=
  match system.tree? root with
  | .ok (.directory entries) => sourceNames excluded (.directory entries)
  | _ => []

theorem sourceFiles_eq (options : Options) (system : FileSystem) (root : Path) :
    sourceFiles options system root = (placesBelow options.excludedDirectories system root).map root.append := by
  rw [sourceFiles, placesBelow]
  cases system.tree? root with
  | error fault => rfl
  | ok tree => cases tree <;> rfl

theorem placesBelow_increasing (h : system.tree.HasDistinctNames) :
    (placesBelow excluded system root).Pairwise (· < ·) := by
  rw [placesBelow]
  split
  · rename_i htree
    exact sourceNames_increasing (FileSystem.hasDistinctNames_tree? h htree)
  · exact .nil

theorem mem_placesBelow (h : system.tree.HasDistinctNames) {names : List String} :
    names ∈ placesBelow excluded system root ↔ system.HasFileBelow root names ∧ IsSourcePlace excluded names := by
  rw [placesBelow, FileSystem.HasFileBelow]
  split
  · rename_i entries htree
    rw [mem_sourceNames_iff (FileSystem.hasDistinctNames_tree? h htree)]
    simp [htree]
  · rename_i hnone
    refine iff_of_false (List.not_mem_nil) ?_
    rintro ⟨⟨tree, bytes, htree, hfile⟩, directories, name, rfl, -, -⟩
    -- Only a directory has files below it.
    cases tree with
    | directory entries => exact hnone entries htree
    | file other => cases directories <;> cases hfile

/-- The files below a root that are listed are the sources that are in no directory that is left out, each once and
in the order of the names of their paths. Their names below the root depend on nothing but the files there: they
are the same below any root with the same files. -/
theorem sourceFiles_exact (options : Options) (h : system.tree.HasDistinctNames) (root : Path) :
    (∀ path, path ∈ sourceFiles options system root ↔
      ∃ directories name, path = root.append (directories ++ [name]) ∧
        system.HasFileBelow root (directories ++ [name]) ∧ sourceSuffix.toList <:+ name.toList ∧
        ∀ directory ∈ directories, directory ∉ options.excludedDirectories) ∧
    (sourceFiles options system root).Pairwise (fun first second => first.parts < second.parts) ∧
    ∀ (other : FileSystem) (otherRoot : Path), other.tree.HasDistinctNames →
      (∀ names, system.HasFileBelow root names ↔ other.HasFileBelow otherRoot names) →
        ∃ places : List (List String), sourceFiles options system root = places.map root.append ∧
          sourceFiles options other otherRoot = places.map otherRoot.append := by
  refine ⟨fun path => ?_, ?_, fun other otherRoot hother hsame => ?_⟩
  · rw [sourceFiles_eq, List.mem_map]
    constructor
    · rintro ⟨names, hnames, rfl⟩
      obtain ⟨hfile, directories, name, rfl, hname, hexcluded⟩ := (mem_placesBelow h).1 hnames
      exact ⟨directories, name, rfl, hfile, hname, hexcluded⟩
    · rintro ⟨directories, name, rfl, hfile, hname, hexcluded⟩
      exact ⟨_, (mem_placesBelow h).2 ⟨hfile, directories, name, rfl, hname, hexcluded⟩, rfl⟩
  · rw [sourceFiles_eq, List.pairwise_map]
    refine (placesBelow_increasing h).imp fun {first second} hlt => ?_
    exact List.append_left_lt hlt
  · refine ⟨placesBelow options.excludedDirectories system root, sourceFiles_eq _ _ _, ?_⟩
    have hplaces : placesBelow options.excludedDirectories system root =
        placesBelow options.excludedDirectories other otherRoot := by
      refine (placesBelow_increasing h).eq_of_mem_iff (placesBelow_increasing hother) fun names => ?_
      rw [mem_placesBelow h, mem_placesBelow hother, hsame]
    rw [hplaces, sourceFiles_eq]

/-- Sources in directories one of which has the name of a source and one of which is left out. -/
def sampleTree : FileTree :=
  [["a.cs", "b.cs"], ["obj", "d.cs"], ["a b.cs"], ["a", "c.cs"]].foldl (fun tree names => tree.put names (.file []))
    (.directory [])

/-- The same sources below a directory with a name that is left out. -/
def movedTree : FileTree := (FileTree.directory []).put ["bin", "app"] sampleTree

/-- The same sources are listed wherever they are. -/
theorem sourceFiles_exact_moved :
    sampleTree.HasDistinctNames ∧ movedTree.HasDistinctNames ∧
      (Path.ofText "bin/app").append ["a.cs", "b.cs"] ∈ sourceFiles {} { tree := movedTree } (.ofText "bin/app") ∧
      (Path.ofText "bin/app").append ["obj", "d.cs"] ∉ sourceFiles {} { tree := movedTree } (.ofText "bin/app") ∧
      ∃ places : List (List String), sourceFiles {} { tree := sampleTree } {} = places.map (Path.append {}) ∧
        sourceFiles {} { tree := movedTree } (.ofText "bin/app") = places.map (Path.ofText "bin/app").append := by
  have hfile : (FileTree.file []).HasDistinctNames := .file []
  have hempty : (FileTree.directory []).HasDistinctNames := .directory .nil (List.forall_mem_nil _)
  have hsample : sampleTree.HasDistinctNames := (((hempty.put hfile _).put hfile _).put hfile _).put hfile _
  have hmoved : movedTree.HasDistinctNames := hempty.put hsample _
  have hsystem : ({ tree := movedTree } : FileSystem).tree.HasDistinctNames := hmoved
  obtain ⟨hmem, -, hsame⟩ := sourceFiles_exact {} hsystem (.ofText "bin/app")
  refine ⟨hsample, hmoved, ?_, fun hbad => ?_, ?_⟩
  · exact (hmem _).2 ⟨["a.cs"], "b.cs", rfl, ⟨_, [], rfl, rfl⟩, by decide, by decide⟩
  · obtain ⟨directories, name, hpath, -, -, hexcluded⟩ := (hmem _).1 hbad
    have hnames := List.append_cancel_left (congrArg Path.parts hpath)
    cases directories with
    | nil => cases hnames
    | cons directory directories =>
      obtain ⟨rfl, -⟩ := List.cons.inj hnames
      exact hexcluded "obj" List.mem_cons_self (by decide)
  · obtain ⟨places, hlisted, hother⟩ := hsame { tree := sampleTree } {} hsample fun names => Iff.rfl
    exact ⟨places, hother, hlisted⟩

end Collection

end TypeBridge
