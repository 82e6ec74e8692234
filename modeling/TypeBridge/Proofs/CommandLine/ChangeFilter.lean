import TypeBridge.CommandLine.Watch
import TypeBridge.Proofs.Files.Path

/-!
# Changes that matter and sources that are listed

The change of a file matters only if the file is one of the sources that are listed below the directory that is watched.
The converse does not hold. Nothing in the list depends on the names above the directory, or on how a path is written;
but the change of a source that is listed does not matter when a name that is never watched is anywhere in its path, or
when its path runs through a directory that is left out and back by two dots.

Results:
* `isUnwatched_eq_false_iff`: the names that are never watched are looked for in the whole path.
* `any_directoriesBelow_eq_false_iff`: the directories below the one that is watched are not left out.
* `accepts_iff_listed`: when the change of a file matters.
-/
namespace TypeBridge.CommandLine.ChangeFilter

variable {system : FileSystem} {root path : Path} {place names excluded : List String}

/-- What it means that no name in a path is one that is never watched. -/
structure IsWatched (path : Path) : Prop where
  directories : ∀ name ∈ path.parts, name ∉ unwatchedDirectories
  beginnings : ∀ last, path.parts.getLast? = some last →
    ∀ beginning ∈ unwatchedBeginnings, ¬ beginning.toList <+: last.toList

/-- What it means that a path that is written as one below a place runs through no directory that is left out, not even
through one that two dots take back. -/
def RunsClear (excluded place : List String) (path : Path) : Prop :=
  path.root = "/" → ∀ rest, path.parts = place ++ rest → ∀ name ∈ rest.dropLast, name ∉ excluded

theorem any_contains_eq_false_iff (names excluded : List String) :
    names.any excluded.contains = false ↔ ∀ name ∈ names, name ∉ excluded := by
  simp

theorem isUnwatched_eq_false_iff (h : path.IsCanonical) (hparts : path.parts ≠ []) :
    isUnwatched path.text.toList = false ↔ IsWatched path := by
  simp only [isUnwatched, h.splitOn_text hparts, Bool.or_eq_false_iff, any_contains_eq_false_iff]
  have hlast := List.getLast?_eq_some_getLast hparts
  rw [List.getLastD_eq_getLast?, hlast, Option.getD_some]
  constructor
  · rintro ⟨hdirectories, hbeginnings⟩
    refine ⟨hdirectories, fun last hsome beginning hmem hprefix => ?_⟩
    rw [hlast] at hsome
    cases hsome
    have hnot := List.any_eq_false.1 hbeginnings beginning hmem
    exact hnot (List.isPrefixOf_iff_prefix.2 hprefix)
  · rintro ⟨hdirectories, hbeginnings⟩
    refine ⟨hdirectories, List.any_eq_false.2 fun beginning hmem hprefix => ?_⟩
    exact hbeginnings _ hlast beginning hmem (List.isPrefixOf_iff_prefix.1 hprefix)

/-- No directory that a path goes through below the one that is watched is left out, when that holds of the file it
leads to and of the way on which it does. -/
theorem any_directoriesBelow_eq_false_iff {workingDirectory : List String} (hplace : ".." ∉ place)
    (hpath : path.resolve workingDirectory = place ++ names) :
    (directoriesBelow ⟨place, excluded⟩ workingDirectory path).any excluded.contains = false ↔
      Collection.isExcluded excluded names = false ∧ RunsClear excluded place path := by
  rw [Collection.isExcluded, directoriesBelow]
  simp only [any_contains_eq_false_iff]
  split
  · rename_i hbelow
    obtain ⟨hroot, hprefix⟩ := hbelow
    obtain ⟨rest, hrest⟩ := List.isPrefixOf_iff_prefix.1 hprefix
    rw [← hrest, List.drop_left]
    have hsublist : names.dropLast.Sublist rest.dropLast := by
      have habsolute : path.isAbsolute = true := by rw [Path.isAbsolute, hroot]; rfl
      have hwalk : Path.walk [] (place ++ rest) = place ++ names := by
        rw [← hpath, Path.resolve, if_pos habsolute, hrest]
        rfl
      rw [Path.walk_append, Path.walk_of_not_mem [] hplace] at hwalk
      have htail := (Path.sublist_of_walk hwalk).reverse.tail
      rwa [List.tail_reverse, List.tail_reverse, List.reverse_sublist] at htail
    constructor
    · intro hclear
      refine ⟨fun name hname => hclear name (hsublist.subset hname), fun _ other hother => ?_⟩
      rw [← hrest] at hother
      rwa [← List.append_cancel_left hother]
    · rintro ⟨-, hclear⟩
      exact hclear hroot rest hrest.symm
  · rename_i hbelow
    have hresolved : place.isPrefixOf (place ++ names) = true := List.isPrefixOf_iff_prefix.2 (List.prefix_append _ _)
    simp only [hpath, hresolved, if_true, List.drop_left]
    refine ⟨fun hclear => ⟨hclear, fun hroot rest hrest => ?_⟩, And.left⟩
    exact absurd ⟨hroot, List.isPrefixOf_iff_prefix.2 ⟨rest, hrest.symm⟩⟩ hbelow

/-- A file below a directory is listed when it is a source and in no directory that is left out. -/
theorem mem_sourceFiles_iff (options : Options) {entries : List (String × FileTree)} {bytes : List UInt8}
    (hroot : system.place root = .ok place)
    (hdirectory : system.tree.get? place = some (.directory entries))
    (hfile : system.tree.get? (place ++ names) = some (.file bytes)) :
    root.append names ∈ Collection.sourceFiles options system root ↔
      Collection.isSourceName names = true ∧ Collection.isExcluded options.excludedDirectories names = false := by
  have hbelow : (FileTree.directory entries).get? names = some (.file bytes) := by
    rw [FileTree.get?_append, hdirectory] at hfile
    exact hfile
  have htree : system.tree? root = .ok (.directory entries) := by
    simp only [FileSystem.tree?, hroot, hdirectory]
  have hlisted : names ∈ (FileTree.directory entries).files.map (·.1) :=
    List.mem_map.2 ⟨_, FileTree.mem_files hbelow, rfl⟩
  rw [Collection.sourceFiles, htree, ← Bool.not_eq_true', ← Bool.and_eq_true, ← Collection.isSource]
  constructor
  · intro hmem
    obtain ⟨other, hother, heq⟩ := List.mem_map.1 hmem
    rw [List.append_cancel_left (congrArg Path.parts heq)] at hother
    exact ((Collection.mem_sourceNames _ _ _).1 hother).2
  · intro hsource
    exact List.mem_map.2 ⟨names, (Collection.mem_sourceNames _ _ _).2 ⟨hlisted, hsource⟩, rfl⟩

/-- The change of a file below the directory that is watched matters exactly when the file is one of the sources that
are listed there, no name in its whole path is one that is never watched, and the path runs through no directory that is
left out. -/
theorem accepts_iff_listed (options : Options) {entries : List (String × FileTree)} {bytes : List UInt8}
    (hworking : system.HasWorkingDirectory) (hdots : ".." ∉ system.workingDirectory)
    (hroot : system.place root = .ok place) (hdirectory : system.tree.get? place = some (.directory entries))
    (hfile : system.tree.get? (place ++ names) = some (.file bytes))
    (hcanonical : path.IsCanonical) (hpath : system.place path = .ok (place ++ names)) :
    (ofRoot system.workingDirectory root options.excludedDirectories).accepts system.workingDirectory path.text = true ↔
      root.append names ∈ Collection.sourceFiles options system root ∧ IsWatched path ∧
        RunsClear options.excludedDirectories place path := by
  have hnames : names ≠ [] := by
    rintro rfl
    rw [List.append_nil, hdirectory] at hfile
    cases hfile
  have hnot : ¬ system.tree.HasDirectory (place ++ names) := by
    rintro ⟨inner, hinner⟩
    rw [hfile] at hinner
    cases hinner
  have hlast : path.parts.getLast? = some (names.getLast hnames) := by
    rw [← FileSystem.getLast?_place hworking hnot hpath, List.getLast?_append, List.getLast?_eq_some_getLast hnames,
      Option.some_or]
  have hparts : path.parts ≠ [] := by
    intro hnil
    rw [hnil] at hlast
    cases hlast
  have hsource : Text.endsWith Collection.sourceSuffix.toList path.text.toList = Collection.isSourceName names := by
    rw [hcanonical.endsWith_text hlast (by decide), Collection.isSourceName, List.getLast?_eq_some_getLast hnames]
  have hplace : place = root.resolve system.workingDirectory := FileSystem.place_eq_resolve hdots hroot
  have hup : ".." ∉ place := by
    rw [FileSystem.placeFrom_eq_walk hroot]
    refine Path.not_mem_walk ?_ _
    split
    · exact List.not_mem_nil
    · exact hdots
  rw [mem_sourceFiles_iff options hroot hdirectory hfile, ofRoot, ← hplace, accepts]
  have hresolved : path.resolve system.workingDirectory = place ++ names :=
    (FileSystem.place_eq_resolve hdots hpath).symm
  simp only [hcanonical.ofText_text hparts, Bool.and_eq_true, Bool.not_eq_true', hsource,
    any_directoriesBelow_eq_false_iff hup hresolved, isUnwatched_eq_false_iff hcanonical hparts]
  exact ⟨fun ⟨⟨hname, hin, hclear⟩, hwatched⟩ => ⟨⟨hname, hin⟩, hwatched, hclear⟩,
    fun ⟨⟨hname, hin⟩, hwatched, hclear⟩ => ⟨⟨hname, hin, hclear⟩, hwatched⟩⟩

/-- Sources below a directory that is never watched, and next to one that is left out. -/
def besideOthers : FileSystem :=
  { tree := .directory [("w", .directory [
      ("A.cs", .file []),
      ("obj", .directory []),
      ("node_modules", .directory [("app", .directory [("A.cs", .file [])])])])] }

/-- The source is listed in both directories that are watched, and its change matters in neither of them: in one of them
a directory above it has a name that is never watched, in the other one the path comes back from a directory that is
left out. -/
theorem accepts_iff_listed_besideOthers :
    ((Path.ofText "/w/node_modules/app").append ["A.cs"] ∈
        Collection.sourceFiles {} besideOthers (.ofText "/w/node_modules/app") ∧
      (ofRoot [] (.ofText "/w/node_modules/app") ["bin", "obj"]).accepts [] "/w/node_modules/app/A.cs" ≠ true) ∧
    ((Path.ofText "/w/obj/..").append ["A.cs"] ∈ Collection.sourceFiles {} besideOthers (.ofText "/w/obj/..") ∧
      (ofRoot [] (.ofText "/w/obj/..") ["bin", "obj"]).accepts [] "/w/obj/../A.cs" ≠ true) := by
  have hworking : besideOthers.HasWorkingDirectory := ⟨_, rfl⟩
  constructor
  · have hroot : besideOthers.place (.ofText "/w/node_modules/app") = .ok ["w", "node_modules", "app"] := rfl
    have hfile : besideOthers.tree.get? (["w", "node_modules", "app"] ++ ["A.cs"]) = some (.file []) := rfl
    have hpath : besideOthers.place (.ofText "/w/node_modules/app/A.cs") =
        .ok (["w", "node_modules", "app"] ++ ["A.cs"]) := rfl
    refine ⟨(mem_sourceFiles_iff {} hroot rfl hfile).2 (by decide), fun haccepts => ?_⟩
    obtain ⟨-, hwatched, -⟩ :=
      (accepts_iff_listed {} hworking (by decide) hroot rfl hfile (Path.isCanonical_ofText _) hpath).1 haccepts
    exact hwatched.directories "node_modules" (by decide) (by decide)
  · have hroot : besideOthers.place (.ofText "/w/obj/..") = .ok ["w"] := rfl
    have hfile : besideOthers.tree.get? (["w"] ++ ["A.cs"]) = some (.file []) := rfl
    have hpath : besideOthers.place (.ofText "/w/obj/../A.cs") = .ok (["w"] ++ ["A.cs"]) := rfl
    refine ⟨(mem_sourceFiles_iff {} hroot rfl hfile).2 (by decide), fun haccepts => ?_⟩
    obtain ⟨-, -, hclear⟩ :=
      (accepts_iff_listed {} hworking (by decide) hroot rfl hfile (Path.isCanonical_ofText _) hpath).1 haccepts
    exact hclear rfl ["obj", "..", "A.cs"] rfl "obj" (by decide) (by decide)

end TypeBridge.CommandLine.ChangeFilter
