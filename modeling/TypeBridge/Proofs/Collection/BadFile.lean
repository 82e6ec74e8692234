import Mathlib.Data.List.Forall2
import TypeBridge.Proofs.Collection.Steps

/-!
# Files from which nothing is got

A file may be missing or a directory, its bytes may be no text, and its text may break a rule of the language. Whatever
it is, it costs one failure and one warning, and it changes nothing for the files before and after it.

Results:
* `unitOfFile_eq_error_iff`: from which files nothing is got.
* `Sums.separates`: what the collected declarations, files, failures and warnings are.
* `Sums.addsFailure`: what one more bad file changes.
* `collect_separates`: both for collecting.
-/
namespace TypeBridge.Collection

section BadFile

variable [FaultFinder] (options : Options) (system : FileSystem)

/-! ## Good and bad files -/

/-- What is wrong with a file from which nothing is got. -/
inductive Faulty (path : Path) : SourceFault → Prop
  /-- There is no file, or it is a directory. -/
  | unreadable {fault : FileFault} : system.read path = .error fault → Faulty path (.unreadable fault)
  /-- The bytes are no text. -/
  | encoding {bytes : List UInt8} {fault : Text.Utf8Fault} : system.read path = .ok bytes →
      Text.decodeUtf8 (Text.dropByteOrderMark bytes) = .error fault → Faulty path (.encoding fault)
  /-- The text breaks a rule of the language, and the fault is at the place that is found for it. -/
  | grammar {bytes : List UInt8} {text : List Char} : system.read path = .ok bytes →
      Text.decodeUtf8 (Text.dropByteOrderMark bytes) = .ok text → Source.unit? options (.ofList text) = none →
      Faulty path (.grammar (FaultFinder.place? (.ofList text)))

/-- Whether something is got from a file. -/
def isGood (path : Path) : Bool := (unitOf? (outcome options system path)).isSome

variable {options system}

theorem unitOfFile_eq_error_iff {path : Path} {fault : SourceFault} :
    unitOfFile options system path = .error fault ↔ Faulty options system path fault := by
  constructor
  · intro h
    rw [unitOfFile] at h
    split at h
    · rename_i hread
      cases h
      exact .unreadable hread
    · rename_i bytes hread
      rw [unitOfBytes] at h
      split at h
      · rename_i hdecode
        cases h
        exact .encoding hread hdecode
      · rename_i text hdecode
        rw [unitOfText] at h
        split at h
        · cases h
        · rename_i hunit
          cases h
          exact .grammar hread hdecode hunit
  · intro h
    cases h with
    | unreadable hread => simp only [unitOfFile, hread]
    | encoding hread hdecode => simp only [unitOfFile, hread, unitOfBytes, hdecode]
    | grammar hread hdecode hunit => simp only [unitOfFile, hread, unitOfBytes, hdecode, unitOfText, hunit]

/-! ## Several files -/

theorem parsed_map (paths : List Path) :
    parsed (paths.map (outcome options system)) = paths.filter (isGood options system) := by
  rw [parsed, List.filter_map, List.map_map]
  exact List.map_id _

theorem map_fst_failures_map (paths : List Path) :
    (failures (paths.map (outcome options system))).map (·.1) =
      paths.filter fun path => !isGood options system path := by
  induction paths with
  | nil => rfl
  | cons path paths ih =>
    rw [List.map_cons, failures, List.filterMap_cons, List.filter_cons, isGood]
    cases hunit : unitOfFile options system path with
    | error fault =>
      simp only [outcome, unitOf?, faultOf?, hunit]
      exact congrArg (path :: ·) ih
    | ok unit =>
      simp only [outcome, unitOf?, faultOf?, hunit]
      exact ih

theorem forall₂_units (paths : List Path) :
    List.Forall₂ (fun path unit => unitOfFile options system path = .ok unit)
      (paths.filter (isGood options system)) ((paths.map (outcome options system)).filterMap unitOf?) := by
  induction paths with
  | nil => exact .nil
  | cons path paths ih =>
    rw [List.map_cons, List.filterMap_cons, List.filter_cons, isGood]
    cases hunit : unitOfFile options system path with
    | error fault =>
      simp only [outcome, unitOf?, hunit]
      exact ih
    | ok unit =>
      simp only [outcome, unitOf?, hunit]
      exact .cons hunit ih

theorem faulty_of_mem_failures {paths : List Path} {failure : Path × SourceFault}
    (h : failure ∈ failures (paths.map (outcome options system))) : Faulty options system failure.1 failure.2 := by
  obtain ⟨_, houtcome, hfault⟩ := List.mem_filterMap.1 h
  obtain ⟨path, -, rfl⟩ := List.mem_map.1 houtcome
  rw [← unitOfFile_eq_error_iff]
  cases hunit : unitOfFile options system path with
  | error fault =>
    simp only [faultOf?, outcome, hunit, Option.some.injEq] at hfault
    rw [← hfault]
    exact hunit
  | ok unit =>
    simp only [faultOf?, outcome, hunit] at hfault
    cases hfault

variable (options system) in
/-- What it means that good and bad files are kept apart: the declarations are those of the good ones, and each bad one
has one failure and one warning, all in the order of the files. -/
structure Separates (console : Console) (paths : List Path) (collected : Collected) : Prop where
  parsed : collected.parsed = paths.filter (isGood options system)
  failed : collected.failures.map (·.1) = paths.filter fun path => !isGood options system path
  perm : (collected.parsed ++ collected.failures.map (·.1)).Perm paths
  declarations : ∃ units,
    List.Forall₂ (fun path unit => unitOfFile options system path = .ok unit) collected.parsed units ∧
    collected.declarations = .ofUnits units
  failures : ∀ failure ∈ collected.failures,
    ∃ fault, Faulty options system failure.1 fault ∧ failure.2 = fault.message (some failure.1)
  console : collected.console =
    console.complainAll (collected.failures.map fun failure => Generation.mark ++ "warning: skipped " ++ failure.2)

variable {console : Console} {collected : Collected}

theorem Sums.separates {paths : List Path} (h : Sums console (paths.map (outcome options system)) collected) :
    Separates options system console paths collected := by
  have hparsed : collected.parsed = paths.filter (isGood options system) := by rw [h.parsed, parsed_map]
  have hfailed : collected.failures.map (·.1) = paths.filter fun path => !isGood options system path := by
    rw [h.failures, List.map_map]
    exact map_fst_failures_map paths
  refine ⟨hparsed, hfailed, ?_, ⟨_, hparsed ▸ forall₂_units paths, h.declarations⟩, fun failure hfailure => ?_, ?_⟩
  · rw [hparsed, hfailed]
    exact List.filter_append_perm _ _
  · rw [h.failures] at hfailure
    obtain ⟨found, hfound, rfl⟩ := List.mem_map.1 hfailure
    exact ⟨found.2, faulty_of_mem_failures hfound, rfl⟩
  · rw [h.console, h.failures, List.map_map]
    rfl

/-! ## One more bad file -/

variable (options system) in
/-- What it means that one more bad file, between some files and others, adds one failure at its place and changes
nothing else. -/
structure AddsFailure (before after : List Path) (failure : Path × String) (collected inserted : Collected) : Prop where
  declarations : inserted.declarations = collected.declarations
  parsed : inserted.parsed = collected.parsed
  failures : ∃ first second,
    collected.failures = first ++ second ∧ inserted.failures = first ++ failure :: second ∧
    first.map (·.1) = before.filter (fun path => !isGood options system path) ∧
    second.map (·.1) = after.filter (fun path => !isGood options system path)

theorem Sums.addsFailure {before after : List Path} {bad : Path} {fault : SourceFault} {inserted : Collected}
    (hfault : Faulty options system bad fault)
    (h : Sums console ((before ++ after).map (outcome options system)) collected)
    (h' : Sums console ((before ++ bad :: after).map (outcome options system)) inserted) :
    AddsFailure options system before after (bad, fault.message (some bad)) collected inserted := by
  have hbad : outcome options system bad = (bad, .error fault) :=
    congrArg (Prod.mk bad) (unitOfFile_eq_error_iff.2 hfault)
  rw [List.map_append] at h
  rw [List.map_append, List.map_cons, hbad] at h'
  -- The failures of the files before and after stay what they were; the new one comes between them.
  refine ⟨?_, ?_, (Collection.failures (before.map (outcome options system))).map failureMessage,
    (Collection.failures (after.map (outcome options system))).map failureMessage, ?_, ?_, ?_, ?_⟩
  · rw [h.declarations, h'.declarations, Collection.declarations, Collection.declarations, List.filterMap_append,
      List.filterMap_append, List.filterMap_cons_none rfl]
  · rw [h.parsed, h'.parsed, parsed_append, parsed_append]
    rfl
  · rw [h.failures, failures_append, List.map_append]
  · rw [h'.failures, failures_append, List.map_append]
    rfl
  · rw [List.map_map]
    exact map_fst_failures_map before
  · rw [List.map_map]
    exact map_fst_failures_map after

/-- Collecting never raises anything, whatever the files are. Good and bad files are kept apart, and one more bad file
anywhere among the others adds one failure at its place and changes neither the declarations nor the good files. -/
theorem collect_separates {workers : Nat} {paths : List Path}
    (schedule : Schedule (attempt options system) workers paths) (console : Console) :
    ∃ collected, collect schedule console = .ok collected ∧ Separates options system console paths collected ∧
      ∀ (before after : List Path) (bad : Path) (fault : SourceFault), before ++ after = paths →
        Faulty options system bad fault →
        ∀ longer : Schedule (attempt options system) workers (before ++ bad :: after),
          ∃ inserted, collect longer console = .ok inserted ∧
            AddsFailure options system before after (bad, fault.message (some bad)) collected inserted := by
  have hsums := sums_ofOutcomes console (outcomes options system workers paths)
  rw [outcomes_eq_map] at hsums
  refine ⟨_, collect_eq_ok schedule console, ?_, fun before after bad fault hpaths hfault longer => ?_⟩
  · rw [outcomes_eq_map]
    exact hsums.separates
  · subst hpaths
    have hlonger := sums_ofOutcomes console (outcomes options system workers (before ++ bad :: after))
    refine ⟨_, collect_eq_ok longer console, ?_⟩
    rw [outcomes_eq_map] at hlonger ⊢
    rw [outcomes_eq_map]
    exact hsums.addsFailure hfault hlonger

end BadFile

/-- A file that is no text, between a good one and a directory. -/
theorem collect_separates_mixedFiles :
    Faulty {} mixedFiles (.ofText "B.cs") (.encoding ⟨.start, 0xFF, 0, 1⟩) ∧
      ∃ longer : Schedule (attempt {} mixedFiles) 1 [.ofText "A.cs", .ofText "B.cs", .ofText "D.cs"],
        ∃ inserted, collect longer {} = .ok inserted ∧ inserted.parsed = [.ofText "A.cs"] ∧
          inserted.failures.map (·.1) = [.ofText "B.cs", .ofText "D.cs"] := by
  have hfault : Faulty {} mixedFiles (.ofText "B.cs") (.encoding ⟨.start, 0xFF, 0, 1⟩) :=
    .encoding (show mixedFiles.read (.ofText "B.cs") = .ok [0xFF] by rfl) (by rfl)
  obtain ⟨schedule, -⟩ := Schedule.exists_of_events (attempt {} mixedFiles) Nat.one_pos
    [.ofText "A.cs", .ofText "D.cs"] (List.forall_mem_nil _)
  obtain ⟨longer, -⟩ := Schedule.exists_of_events (attempt {} mixedFiles) Nat.one_pos
    [.ofText "A.cs", .ofText "B.cs", .ofText "D.cs"] (List.forall_mem_nil _)
  obtain ⟨collected, -, hseparates, hinsert⟩ := collect_separates schedule {}
  obtain ⟨inserted, hcollect, -, hparsed, first, second, -, hinserted, hfirst, hsecond⟩ :=
    hinsert [.ofText "A.cs"] [.ofText "D.cs"] (.ofText "B.cs") _ rfl hfault longer
  refine ⟨hfault, longer, inserted, hcollect, ?_, ?_⟩
  · rw [hparsed, hseparates.parsed]
    decide +kernel
  · rw [hinserted, List.map_append, List.map_cons, hfirst, hsecond]
    decide +kernel

end TypeBridge.Collection
