import TypeBridge.Proofs.Files.Path
import Mathlib.Data.List.Nodup

/-!
# The files of a tree

The entries of a directory have different names. In such a tree each file is listed once, with the place at which it
is found.

Results:
* `HasDistinctNames.put`: what is put into a tree leaves the names distinct.
* `mem_files_iff`, `nodup_places`: the list of the files of a tree.
-/
namespace TypeBridge

namespace FileTree

/-- What it means that no two entries of a directory anywhere in a tree have one name. -/
inductive HasDistinctNames : FileTree → Prop
  | file (bytes : List UInt8) : HasDistinctNames (.file bytes)
  | directory {entries : List (String × FileTree)} : (Table.names entries).Nodup →
      (∀ entry ∈ entries, HasDistinctNames entry.2) → HasDistinctNames (.directory entries)

variable {tree new inner : FileTree} {names : List String} {bytes : List UInt8}

/-! ## Distinct names -/

theorem HasDistinctNames.get? (h : tree.HasDistinctNames) {place : List String}
    (hinner : tree.get? place = some inner) : inner.HasDistinctNames := by
  induction place generalizing tree with
  | nil =>
    rw [get?_nil] at hinner
    cases hinner
    exact h
  | cons name place ih =>
    cases h with
    | file => cases hinner
    | directory _ hentries =>
      obtain ⟨next, hnext, hinner⟩ := Option.bind_eq_some_iff.1 hinner
      exact ih (hentries _ (Table.mem_of_get? hnext)) hinner

/-- Trees that are put together one by one have distinct names. -/
theorem HasDistinctNames.put (h : tree.HasDistinctNames) (hnew : new.HasDistinctNames) (place : List String) :
    (tree.put place new).HasDistinctNames := by
  induction place generalizing tree with
  | nil => exact hnew
  | cons name place ih =>
    have hempty : (FileTree.directory []).HasDistinctNames := .directory .nil (List.forall_mem_nil _)
    have hentries : (Table.names tree.entries).Nodup ∧ ∀ entry ∈ tree.entries, entry.2.HasDistinctNames := by
      cases h with
      | file => exact ⟨.nil, List.forall_mem_nil _⟩
      | directory hnodup hentries => exact ⟨hnodup, hentries⟩
    refine .directory (Table.nodup_names_insert hentries.1 _ _) fun entry hentry => ?_
    rcases Table.mem_insert hentry with rfl | hentry
    · refine ih ?_
      cases hget : Table.get? tree.entries name with
      | none => exact hempty
      | some inner => exact hentries.2 _ (Table.mem_of_get? hget)
    · exact hentries.2 entry hentry

/-! ## The list of the files -/

theorem filesIn_eq_flatMap (place : List String) (entries : List (String × FileTree)) :
    filesIn place entries = entries.flatMap fun entry => filesAt (place ++ [entry.1]) entry.2 := by
  induction entries with
  | nil => rfl
  | cons entry entries ih => rw [filesIn, ih, List.flatMap_cons]

theorem exists_of_mem_filesAt (h : tree.HasDistinctNames) {place : List String}
    (hfile : (names, bytes) ∈ filesAt place tree) :
    ∃ below, names = place ++ below ∧ tree.get? below = some (.file bytes) := by
  induction h generalizing place with
  | file other =>
    cases List.mem_singleton.1 hfile
    exact ⟨[], (List.append_nil _).symm, rfl⟩
  | @directory entries hnodup hentries ih =>
    rw [filesAt, filesIn_eq_flatMap, List.mem_flatMap] at hfile
    obtain ⟨entry, hentry, hfile⟩ := hfile
    obtain ⟨below, rfl, hbelow⟩ := ih entry hentry hfile
    refine ⟨entry.1 :: below, by simp, ?_⟩
    rw [FileTree.get?, Table.get?_of_mem hnodup hentry]
    exact hbelow

/-- The files that are listed are those that are found, with their places. -/
theorem mem_files_iff (h : tree.HasDistinctNames) :
    (names, bytes) ∈ tree.files ↔ tree.get? names = some (.file bytes) := by
  refine ⟨fun hfile => ?_, mem_files⟩
  obtain ⟨below, rfl, hbelow⟩ := exists_of_mem_filesAt h hfile
  exact hbelow

theorem nodup_placesAt (h : tree.HasDistinctNames) (place : List String) : ((filesAt place tree).map (·.1)).Nodup := by
  induction h generalizing place with
  | file bytes => exact List.nodup_singleton place
  | @directory entries hnodup hentries ih =>
    rw [filesAt, filesIn_eq_flatMap, List.map_flatMap, List.nodup_flatMap]
    refine ⟨fun entry hentry => ih entry hentry _, ?_⟩
    have hpairs : entries.Pairwise fun first second => first.1 ≠ second.1 := List.pairwise_map.1 hnodup
    refine hpairs.imp_of_mem fun {first second} hfirst hsecond hne names hmem hmem' => ?_
    -- The places in two entries differ in the name of the entry.
    obtain ⟨⟨_, _⟩, hfile, rfl⟩ := List.mem_map.1 hmem
    obtain ⟨⟨_, _⟩, hfile', heq⟩ := List.mem_map.1 hmem'
    obtain ⟨below, rfl, -⟩ := exists_of_mem_filesAt (hentries first hfirst) hfile
    obtain ⟨below', rfl, -⟩ := exists_of_mem_filesAt (hentries second hsecond) hfile'
    simp only [List.append_assoc, List.append_cancel_left_eq, List.singleton_append, List.cons.injEq] at heq
    exact hne heq.1.symm

/-- Each place is listed once. -/
theorem nodup_places (h : tree.HasDistinctNames) : (tree.files.map (·.1)).Nodup := nodup_placesAt h []

end FileTree

end TypeBridge
