import TypeBridge.Collection.Stages
import TypeBridge.Proofs.Collection.Schedule

/-!
# Collecting step by step

Only faults of a source are caught when files are collected in stages, so it has to be shown that nothing else is left
that may be raised at any of them. What is got from the files is then gone through step by step in the order of the
files: a file adds its declarations to those of the files before it, or a warning.

Results:
* `attempt_eq`: nothing is raised but faults of a source.
* `Sums.add_error`, `Sums.add_ok`, `sums_ofOutcomes`: what one file adds, and what all files add up to.
* `collect_eq_ok`, `collect_by_workers`: collecting, whichever way the workers share the files.
-/
namespace TypeBridge.Collection

/-! ## One file -/

/-- Everything that is raised on the way is caught. -/
theorem attempt_eq [FaultFinder] (options : Options) (system : FileSystem) (path : Path) :
    attempt options system path = .ok (unitOfFile options system path) := by
  rw [attempt, parseFile, readText, unitOfFile]
  cases system.read path with
  | error fault => rfl
  | ok bytes =>
    simp only [unitOfBytes]
    cases Text.decodeUtf8 (Text.dropByteOrderMark bytes) with
    | error fault => rfl
    | ok text =>
      simp only [unitOfText, parseText]
      cases Source.unit? options (.ofList text) with
      | none => rfl
      | some unit => rfl

/-! ## One file after another -/

/-- The message about a file from which nothing is got. -/
def failureMessage (failure : Path × SourceFault) : Path × String := (failure.1, failure.2.message (some failure.1))

/-- What it means that what is collected sums up what is got from some files. -/
structure Sums (console : Console) (got : List Outcome) (collected : Collected) : Prop where
  declarations : collected.declarations = Collection.declarations got
  parsed : collected.parsed = Collection.parsed got
  failures : collected.failures = (Collection.failures got).map failureMessage
  console : collected.console = console.complainAll (Generation.warnings got)

variable {console : Console} {got : List Outcome} {collected : Collected}

/-- A file from which nothing is got adds one failure and one warning. -/
theorem Sums.add_error (h : Sums console got collected) (path : Path) (fault : SourceFault) :
    Sums console (got ++ [(path, .error fault)]) (collected.add (path, .error fault)) where
  declarations := by
    rw [Collection.declarations, List.filterMap_append, List.filterMap_cons_none rfl, List.filterMap_nil,
      List.append_nil]
    exact h.declarations
  parsed := by
    rw [parsed_append, ← h.parsed]
    exact (List.append_nil _).symm
  failures := by
    rw [failures_append, List.map_append, ← h.failures]
    rfl
  console := by
    rw [Generation.warnings, failures_append, List.map_append, Console.complainAll, List.foldl_append]
    exact congrArg (Console.complain · _) h.console

/-- A file from which something is got adds its declarations. -/
theorem Sums.add_ok (h : Sums console got collected) (path : Path) (unit : SourceUnit) :
    Sums console (got ++ [(path, .ok unit)]) (collected.add (path, .ok unit)) where
  declarations := by
    rw [Collection.declarations, List.filterMap_append, DeclarationSet.ofUnits, List.foldl_append]
    exact congrArg (DeclarationSet.merge · unit) h.declarations
  parsed := by
    rw [parsed_append, ← h.parsed]
    rfl
  failures := by
    rw [failures_append, List.map_append, ← h.failures]
    exact (List.append_nil _).symm
  console := by
    rw [Generation.warnings, failures_append, List.map_append, Console.complainAll, List.foldl_append]
    exact h.console

theorem Sums.foldl (h : Sums console got collected) (more : List Outcome) :
    Sums console (got ++ more) (more.foldl Collected.add collected) := by
  induction more generalizing got collected with
  | nil => rwa [List.append_nil]
  | cons outcome more ih =>
    rw [List.append_cons]
    obtain ⟨path, result⟩ := outcome
    cases result with
    | error fault => exact ih (h.add_error path fault)
    | ok unit => exact ih (h.add_ok path unit)

/-- What is collected sums up what is got from the files. -/
theorem sums_ofOutcomes (console : Console) (got : List Outcome) : Sums console got (.ofOutcomes console got) := by
  have hnone : Sums console [] { console } := ⟨rfl, rfl, rfl, rfl⟩
  exact hnone.foldl got

/-! ## Several workers -/

section Workers

variable [FaultFinder] {options : Options} {system : FileSystem} {workers : Nat} {paths : List Path}

/-- Whichever way some workers share the files, nothing is raised, and what is collected sums up what is got from the
files in their order. -/
theorem collect_eq_ok (schedule : Schedule (attempt options system) workers paths) (console : Console) :
    collect schedule console = .ok (.ofOutcomes console (outcomes options system workers paths)) := by
  -- The results of a schedule are in the order of the files, as they are without workers.
  have hattempts : (if 1 < workers ∧ 1 < paths.length then schedule.results else paths.map (attempt options system)) =
      paths.map fun path => Except.ok (unitOfFile options system path) := by
    have hmap : paths.map (attempt options system) = paths.map fun path => .ok (unitOfFile options system path) :=
      List.map_congr_left fun path _ => attempt_eq options system path
    rw [schedule.results_eq_map, hmap, ite_self]
  have hresults : (paths.map fun path => (.ok (unitOfFile options system path) : Except Raised _)).mapM id =
      .ok (paths.map (unitOfFile options system)) := by
    rw [List.mapM_map]
    exact List.mapM_pure
  have hzip : paths.zip (paths.map (unitOfFile options system)) = paths.map (outcome options system) :=
    List.map_prod_left_eq_zip.symm
  rw [collect, hattempts, hresults, outcomes_eq_map]
  exact congrArg (Except.ok ∘ Collected.ofOutcomes console) hzip

/-- Several workers collect what one worker does. Whatever they have done, they can go on until all files are done,
and in whichever order they have picked up and finished the files, nothing is raised, and the declarations, the files,
the failures and the warnings are those that one worker gets, in the same order. -/
theorem collect_by_workers (hworkers : 0 < workers) (options : Options) (system : FileSystem) (paths : List Path)
    (console : Console) :
    (∀ events : List WorkEvent, (∀ event ∈ events, event.worker < workers) →
      ∃ schedule : Schedule (attempt options system) workers paths, events <+: schedule.events) ∧
    outcomes options system workers paths = outcomes options system 1 paths ∧
    ∀ (schedule : Schedule (attempt options system) workers paths) (single : Schedule (attempt options system) 1 paths),
      ∃ collected, collect schedule console = .ok collected ∧ collect single console = .ok collected ∧
        Sums console (outcomes options system workers paths) collected := by
  have hsame : outcomes options system workers paths = outcomes options system 1 paths := by
    rw [outcomes_eq_map, outcomes_eq_map]
  refine ⟨fun events => Schedule.exists_of_events _ hworkers paths, hsame, fun schedule single => ?_⟩
  exact ⟨_, collect_eq_ok schedule console, hsame ▸ collect_eq_ok single console, sums_ofOutcomes console _⟩

end Workers

/-- Some files: one with a type, one that is no text, one that ends too early, and a directory. -/
def mixedFiles : FileSystem :=
  { tree := .directory [
      ("A.cs", .file (Text.encodeUtf8 "class A \x7b \x7d".toList)),
      ("B.cs", .file [0xFF]),
      ("C.cs", .file (Text.encodeUtf8 "class C \x7b".toList)),
      ("D.cs", .directory [])] }

/-- Two workers who finish their files the other way round. -/
theorem collect_by_workers_out_of_order :
    0 < 2 ∧ ∃ schedule : Schedule (attempt {} mixedFiles) 2 [.ofText "B.cs", .ofText "A.cs"],
      schedule.events = [.pick 0, .pick 1, .finish 1, .finish 0] ∧
      ∃ collected, collect schedule {} = .ok collected ∧
        collected.parsed = [.ofText "A.cs"] ∧
        collected.failures = [(.ofText "B.cs", "B.cs: not valid UTF-8 (invalid start byte)")] := by
  have hspec := @collect_by_workers _ 2 (by decide) {} mixedFiles [.ofText "B.cs", .ofText "A.cs"] {}
  let schedule : Schedule (attempt {} mixedFiles) 2 [.ofText "B.cs", .ofText "A.cs"] :=
    ⟨[.pick 0, .pick 1, .finish 1, .finish 0], by decide, rfl⟩
  let single : Schedule (attempt {} mixedFiles) 1 [.ofText "B.cs", .ofText "A.cs"] :=
    ⟨[.pick 0, .finish 0, .pick 0, .finish 0], by decide, rfl⟩
  obtain ⟨collected, hcollect, -, hsums⟩ := hspec.2.2 schedule single
  refine ⟨by decide, schedule, rfl, collected, hcollect, ?_, ?_⟩
  · rw [hsums.parsed, outcomes_eq_map]
    decide +kernel
  · rw [hsums.failures, outcomes_eq_map]
    decide +kernel

end TypeBridge.Collection
