import TypeBridge.Files.System

/-!
# Looking up places

What is found at a place of a tree of files, and what is found after something has been put at a place. What a
path leads to is a directory, or something in a directory that there is.

Results:
* `get?_append`: looking up in two steps.
* `bytes?_put_of_outside`, `HasDirectory.put`: the files and directories after something is put where no directory is.
* `FileSystem.place_cases`: where a path leads to.
* `FileSystem.place_of_directories`: a path leads to the same place when all directories are still there.
-/
namespace TypeBridge

namespace FileTree

variable {tree new : FileTree} {place parent other : List String} {name : String}

/-- The bytes of the file at a place, if there is one. -/
def bytes? (tree : FileTree) (place : List String) : Option (List UInt8) :=
  match tree.get? place with
  | some (.file bytes) => some bytes
  | _ => none

/-- Whether there is a directory at a place. -/
def HasDirectory (tree : FileTree) (place : List String) : Prop :=
  ∃ entries, tree.get? place = some (.directory entries)

/-! ## Looking up -/

theorem get?_nil (tree : FileTree) : tree.get? [] = some tree := by
  cases tree <;> rfl

theorem get?_append (tree : FileTree) (first second : List String) :
    tree.get? (first ++ second) = (tree.get? first).bind (get? · second) := by
  induction first generalizing tree with
  | nil => rw [get?_nil]; rfl
  | cons name first ih =>
    cases tree with
    | file bytes => rfl
    | directory entries =>
      simp only [List.cons_append, get?]
      cases Table.get? entries name with
      | none => rfl
      | some inner => exact ih inner

/-- Directories are in directories. -/
theorem HasDirectory.of_append {first second : List String} (h : tree.HasDirectory (first ++ second)) :
    tree.HasDirectory first := by
  obtain ⟨entries, h⟩ := h
  rw [get?_append] at h
  cases hfirst : tree.get? first with
  | none => rw [hfirst] at h; cases h
  | some inner =>
    cases inner with
    | directory entries => exact ⟨entries, hfirst⟩
    | file bytes =>
      rw [hfirst] at h
      cases second with
      | nil => cases h
      | cons name second => cases h

theorem HasDirectory.dropLast (h : tree.HasDirectory place) : tree.HasDirectory place.dropLast := by
  by_cases hne : place = []
  · rw [hne] at h ⊢
    exact h
  · rw [← List.dropLast_concat_getLast hne] at h
    exact h.of_append

theorem HasDirectory.bytes? (h : tree.HasDirectory place) : tree.bytes? place = none := by
  obtain ⟨entries, h⟩ := h
  simp only [FileTree.bytes?, h]

/-! ## Putting -/

/-- The ways in which two places may lie to each other. -/
theorem place_trichotomy (place other : List String) :
    (∃ more, other = place ++ more) ∨ (∃ name more, place = other ++ name :: more) ∨
      (¬ place <+: other ∧ ¬ other <+: place) := by
  by_cases hplace : place <+: other
  · obtain ⟨more, rfl⟩ := hplace
    exact .inl ⟨more, rfl⟩
  · by_cases hother : other <+: place
    · obtain ⟨more, rfl⟩ := hother
      cases more with
      | nil =>
        rw [List.append_nil] at hplace
        exact absurd (List.prefix_refl other) hplace
      | cons name more => exact .inr (.inl ⟨name, more, rfl⟩)
    · exact .inr (.inr ⟨hplace, hother⟩)

theorem get?_put_append (tree new : FileTree) (place more : List String) :
    (tree.put place new).get? (place ++ more) = new.get? more := by
  rw [get?_append, get?_put]
  rfl

theorem hasDirectory_put (tree new : FileTree) (other : List String) (name : String) (more : List String) :
    (tree.put (other ++ name :: more) new).HasDirectory other := by
  induction other generalizing tree with
  | nil => exact ⟨_, rfl⟩
  | cons first other ih =>
    obtain ⟨entries, h⟩ := ih ((Table.get? tree.entries first).getD (.directory []))
    refine ⟨entries, ?_⟩
    simp only [List.cons_append, put, get?, Table.get?_insert, if_true, Option.bind_some]
    exact h

theorem get?_put_of_apart (tree new : FileTree) (hplace : ¬ place <+: other) (hother : ¬ other <+: place) :
    (tree.put place new).get? other = tree.get? other := by
  induction place generalizing tree other with
  | nil => exact absurd List.nil_prefix hplace
  | cons name place ih =>
    cases other with
    | nil => exact absurd List.nil_prefix hother
    | cons first other =>
      simp only [put, get?, Table.get?_insert]
      by_cases hname : first = name
      · subst hname
        rw [List.prefix_cons_inj] at hplace hother
        rw [if_pos rfl, Option.bind_some, ih _ hplace hother]
        cases tree with
        | file bytes => cases other with
          | nil => exact absurd List.nil_prefix hother
          | cons second other => rfl
        | directory entries =>
          rw [get?, FileTree.entries]
          cases Table.get? entries first with
          | some inner => rfl
          | none => cases other with
            | nil => exact absurd List.nil_prefix hother
            | cons second other => rfl
      · rw [if_neg hname]
        cases tree with
        | file bytes => rfl
        | directory entries => rfl

theorem bytes?_put_append (tree new : FileTree) (place more : List String) :
    (tree.put place new).bytes? (place ++ more) = new.bytes? more := by
  rw [bytes?, get?_put_append, bytes?]

/-- The other files stay when something is put in a directory, where no directory is. -/
theorem bytes?_put_of_outside (hparent : tree.HasDirectory parent) (hplace : ¬ tree.HasDirectory (parent ++ [name]))
    (new : FileTree) (houtside : ¬ parent ++ [name] <+: other) :
    (tree.put (parent ++ [name]) new).bytes? other = tree.bytes? other := by
  rcases place_trichotomy (parent ++ [name]) other with ⟨more, rfl⟩ | ⟨first, more, hmore⟩ | ⟨-, hother⟩
  · exact absurd (List.prefix_append _ _) houtside
  · -- The other place is on the way to the place, so it is a directory before and afterwards.
    have hprefix : other <+: parent := by
      rw [← @List.dropLast_concat _ parent name, hmore, List.dropLast_append_of_ne_nil (by simp)]
      exact List.prefix_append _ _
    obtain ⟨rest, rfl⟩ := hprefix
    rw [hparent.of_append.bytes?, hmore]
    exact (hasDirectory_put tree new other first more).bytes?
  · rw [bytes?, get?_put_of_apart tree new houtside hother, bytes?]

/-- The directories stay when something is put where no directory is. -/
theorem HasDirectory.put (h : tree.HasDirectory other) (hplace : ¬ tree.HasDirectory place) (new : FileTree) :
    (tree.put place new).HasDirectory other := by
  rcases place_trichotomy place other with ⟨more, rfl⟩ | ⟨name, more, rfl⟩ | ⟨hnot, hother⟩
  · exact absurd h.of_append hplace
  · exact hasDirectory_put tree new other name more
  · obtain ⟨entries, h⟩ := h
    exact ⟨entries, (get?_put_of_apart tree new hnot hother).trans h⟩

end FileTree

namespace FileSystem

open FileTree

variable {system after : FileSystem} {path : Path} {here names place : List String}

/-- Whether the program works in a directory that there is. -/
def HasWorkingDirectory (system : FileSystem) : Prop := system.tree.HasDirectory system.workingDirectory

/-! ## Where paths lead to -/

/-- Names can be followed only from a directory. -/
theorem hasDirectory_of_placeFrom_cons {name : String} (h : system.placeFrom here (name :: names) = .ok place) :
    system.tree.HasDirectory here := by
  rw [placeFrom] at h
  split at h
  · exact ⟨_, ‹_›⟩
  · cases h
  · cases h

/-- Paths begin at a directory. -/
theorem hasDirectory_start (hworking : system.HasWorkingDirectory) (path : Path) :
    system.tree.HasDirectory (if path.isAbsolute then [] else system.workingDirectory) := by
  split
  · exact HasDirectory.of_append (show system.tree.HasDirectory ([] ++ system.workingDirectory) from hworking)
  · exact hworking

theorem placeFrom_cases (hhere : system.tree.HasDirectory here) (h : system.placeFrom here names = .ok place) :
    system.tree.HasDirectory place ∨
      ∃ parent name, system.tree.HasDirectory parent ∧ place = parent ++ [name] := by
  induction names generalizing here with
  | nil =>
    rw [placeFrom] at h
    cases h
    exact .inl hhere
  | cons name names ih =>
    obtain ⟨entries, hget⟩ := hhere
    simp only [placeFrom, hget] at h
    split at h
    · exact ih (HasDirectory.dropLast ⟨entries, hget⟩) h
    · cases names with
      | nil =>
        rw [placeFrom] at h
        cases h
        exact .inr ⟨here, name, ⟨entries, hget⟩, rfl⟩
      | cons second names => exact ih (hasDirectory_of_placeFrom_cons h) h

/-- A path leads to a directory, or to something in a directory. -/
theorem place_cases (hworking : system.HasWorkingDirectory) (h : system.place path = .ok place) :
    system.tree.HasDirectory place ∨
      ∃ parent name, system.tree.HasDirectory parent ∧ place = parent ++ [name] :=
  placeFrom_cases (hasDirectory_start hworking path) h

theorem placeFrom_of_directories (hkept : ∀ place, system.tree.HasDirectory place → after.tree.HasDirectory place)
    (h : system.placeFrom here names = .ok place) : after.placeFrom here names = .ok place := by
  induction names generalizing here with
  | nil => exact h
  | cons name names ih =>
    rw [placeFrom] at h ⊢
    split at h
    · rename_i entries hget
      obtain ⟨_, hget'⟩ := hkept here ⟨entries, hget⟩
      rw [hget']
      exact ih h
    · cases h
    · cases h

/-- A path leads to the same place when all directories are still there. -/
theorem place_of_directories (hkept : ∀ place, system.tree.HasDirectory place → after.tree.HasDirectory place)
    (hworking : after.workingDirectory = system.workingDirectory) (h : system.place path = .ok place) :
    after.place path = .ok place := by
  rw [FileSystem.place, hworking]
  exact placeFrom_of_directories hkept h

end FileSystem

end TypeBridge
