import TypeBridge.Generation
import TypeBridge.Proofs.Files.Lookup

/-!
# What changes in a file system

Making directories changes no file, whether it succeeds or stops on the way. Writing a text changes the one file
that is written, or no file at all.

Results:
* `KeepsFiles.of_ensureDirectory`, `keepsFilesAnyway_ensureDirectoriesTo`: making directories.
* `WritesFile.of_write`, `WritesFile.file?`: writing a file, and what is read from its path afterwards.
* `Generation.writeText_changes`: writing a text to a file whose directory may have to be made.
-/
namespace TypeBridge

open FileTree

/-- What it means that no file is created, changed or removed. Directories may be new, but none is gone. -/
structure KeepsFiles (before after : FileSystem) : Prop where
  workingDirectory : after.workingDirectory = before.workingDirectory
  directories : ∀ place, before.tree.HasDirectory place → after.tree.HasDirectory place
  bytes : ∀ place, after.tree.bytes? place = before.tree.bytes? place

/-- What it means that the file to which a path leads is created or rewritten, and no other file is created, changed
or removed. -/
structure WritesFile (before after : FileSystem) (path : Path) (bytes : List UInt8) : Prop where
  workingDirectory : after.workingDirectory = before.workingDirectory
  directories : ∀ place, before.tree.HasDirectory place → after.tree.HasDirectory place
  bytes : ∃ place, after.place path = .ok place ∧ after.tree.bytes? place = some bytes ∧
    ∀ other, other ≠ place → after.tree.bytes? other = before.tree.bytes? other

variable {system before made after : FileSystem} {path : Path} {bytes : List UInt8}

theorem KeepsFiles.refl (system : FileSystem) : KeepsFiles system system :=
  ⟨rfl, fun _ h => h, fun _ => rfl⟩

theorem KeepsFiles.trans (h : KeepsFiles before made) (h' : KeepsFiles made after) : KeepsFiles before after :=
  ⟨h'.workingDirectory.trans h.workingDirectory, fun place hplace => h'.directories place (h.directories place hplace),
    fun place => (h'.bytes place).trans (h.bytes place)⟩

theorem KeepsFiles.hasWorkingDirectory (h : KeepsFiles before after) (hworking : before.HasWorkingDirectory) :
    after.HasWorkingDirectory := by
  rw [FileSystem.HasWorkingDirectory, h.workingDirectory]
  exact h.directories _ hworking

theorem WritesFile.hasWorkingDirectory (h : WritesFile before after path bytes)
    (hworking : before.HasWorkingDirectory) : after.HasWorkingDirectory := by
  rw [FileSystem.HasWorkingDirectory, h.workingDirectory]
  exact h.directories _ hworking

/-- The file that is written is the one that is read from the path. -/
theorem WritesFile.file? (h : WritesFile before after path bytes) : after.file? path = some bytes := by
  obtain ⟨place, hplace, hbytes, -⟩ := h.bytes
  rw [bytes?] at hbytes
  split at hbytes
  · rename_i found hget
    cases hbytes
    simp only [FileSystem.file?, FileSystem.tree?, hplace, hget]
  · cases hbytes

theorem WritesFile.after_keepsFiles (h : WritesFile made after path bytes) (hkeeps : KeepsFiles before made) :
    WritesFile before after path bytes := by
  obtain ⟨place, hplace, hbytes, hothers⟩ := h.bytes
  exact ⟨h.workingDirectory.trans hkeeps.workingDirectory,
    fun place hplace => h.directories place (hkeeps.directories place hplace),
    place, hplace, hbytes, fun other hother => (hothers other hother).trans (hkeeps.bytes other)⟩

/-! ## Making directories -/

section Directories

variable (hworking : system.HasWorkingDirectory)
include hworking

theorem KeepsFiles.of_makeDirectory (h : system.makeDirectory path = .ok after) : KeepsFiles system after := by
  rw [FileSystem.makeDirectory] at h
  split at h
  · cases h
  rename_i place hplace
  split at h
  · cases h
  rename_i hget
  cases h
  have hnone : ¬ system.tree.HasDirectory place := by
    rintro ⟨entries, hentries⟩
    rw [hget] at hentries
    cases hentries
  refine ⟨rfl, fun other hother => hother.put hnone _, fun other => ?_⟩
  obtain hdirectory | ⟨parent, name, hparent, rfl⟩ := FileSystem.place_cases hworking hplace
  · exact absurd hdirectory hnone
  by_cases hprefix : parent ++ [name] <+: other
  · -- Nothing is in the new directory, and nothing was where it is now.
    obtain ⟨more, rfl⟩ := hprefix
    have hbefore : system.tree.bytes? (parent ++ [name] ++ more) = none := by
      rw [bytes?, get?_append, hget]
      rfl
    rw [hbefore, bytes?_put_append]
    cases more <;> rfl
  · exact bytes?_put_of_outside hparent hnone _ hprefix

theorem KeepsFiles.of_ensureDirectory (h : system.ensureDirectory path = .ok after) : KeepsFiles system after := by
  rw [FileSystem.ensureDirectory] at h
  split at h
  · cases h
    exact .of_makeDirectory hworking ‹_›
  · split at h
    · cases h
      exact .refl system
    · cases h

end Directories

/-- What it means that no file is created, changed or removed, whether something is finished or not. -/
def KeepsFilesAnyway (before : FileSystem) : Except Unfinished FileSystem → Prop
  | .ok after => KeepsFiles before after
  | .error unfinished => KeepsFiles before unfinished.left

theorem KeepsFilesAnyway.of_leaving {result : Except FileError FileSystem} (hbefore : KeepsFiles before system)
    (h : ∀ after, result = .ok after → KeepsFiles system after) : KeepsFilesAnyway before (system.leaving result) := by
  cases result with
  | error error => exact hbefore
  | ok after => exact hbefore.trans (h after rfl)

/-- Making directories keeps all files, also when it stops after some of them have been made. -/
theorem keepsFilesAnyway_ensureDirectoriesTo (hworking : system.HasWorkingDirectory) (path : Path) (count : Nat) :
    KeepsFilesAnyway system (system.ensureDirectoriesTo path count) := by
  induction count with
  | zero => exact .of_leaving (.refl system) fun after h => .of_ensureDirectory hworking h
  | succ count ih =>
    rw [FileSystem.ensureDirectoriesTo]
    split
    · split
      · rename_i unfinished hinner
        rwa [hinner] at ih
      · rename_i made hinner
        rw [hinner] at ih
        exact .of_leaving ih fun after h => .of_ensureDirectory (ih.hasWorkingDirectory hworking) h
    · exact .of_leaving (.refl system) fun after h => .of_ensureDirectory hworking h

/-! ## Writing -/

theorem WritesFile.of_write (hworking : system.HasWorkingDirectory) (h : system.write path bytes = .ok after) :
    WritesFile system after path bytes := by
  rw [FileSystem.write] at h
  split at h
  · cases h
  rename_i place hplace
  split at h
  · cases h
  rename_i hnot
  cases h
  have hfree : ¬ system.tree.HasDirectory place := fun ⟨entries, hentries⟩ => hnot entries hentries
  have hkept : ∀ other, system.tree.HasDirectory other → (system.tree.put place (.file bytes)).HasDirectory other :=
    fun other hother => hother.put hfree _
  refine ⟨rfl, hkept, place, FileSystem.place_of_directories hkept rfl hplace, ?_, fun other hother => ?_⟩
  · rw [bytes?, get?_put]
  obtain hdirectory | ⟨parent, name, hparent, rfl⟩ := FileSystem.place_cases hworking hplace
  · exact absurd hdirectory hfree
  by_cases hprefix : parent ++ [name] <+: other
  · -- Nothing is in the new file, and nothing was in what it takes the place of.
    obtain ⟨more, rfl⟩ := hprefix
    cases more with
    | nil => exact absurd (List.append_nil _) hother
    | cons first more =>
      have hbefore : system.tree.bytes? (parent ++ [name] ++ first :: more) = none := by
        rw [bytes?, get?_append]
        cases hget : system.tree.get? (parent ++ [name]) with
        | none => rfl
        | some inner => cases inner with
          | file bytes => rfl
          | directory entries => exact absurd ⟨entries, hget⟩ hfree
      rw [hbefore, bytes?_put_append]
      rfl
  · exact bytes?_put_of_outside hparent hfree _ hprefix

/-- Writing a text changes the file at the path and no other one, or, when it is not finished, no file at all. -/
theorem Generation.writeText_changes (hworking : system.HasWorkingDirectory) (output : Path) (text : String) :
    match Generation.writeText system output text with
    | .ok after => WritesFile system after output (Text.encodeUtf8 text.toList)
    | .error unfinished => KeepsFiles system unfinished.left := by
  have hmade := keepsFilesAnyway_ensureDirectoriesTo hworking output.parent output.parent.parts.length
  rw [Generation.writeText, FileSystem.ensureDirectories]
  cases hdirectories : system.ensureDirectoriesTo output.parent output.parent.parts.length with
  | error unfinished =>
    rw [hdirectories] at hmade
    exact hmade
  | ok made =>
    rw [hdirectories] at hmade
    simp only
    cases hwrite : made.write output (Text.encodeUtf8 text.toList) with
    | error error => exact hmade
    | ok after => exact (WritesFile.of_write (hmade.hasWorkingDirectory hworking) hwrite).after_keepsFiles hmade

end TypeBridge
