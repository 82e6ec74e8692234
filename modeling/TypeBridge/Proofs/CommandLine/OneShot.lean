import TypeBridge.Proofs.CommandLine.Generation

/-!
# Runs that do not watch

A run of the program that does not watch changes no file but the declaration file, and not even that one when it ends
with a complaint: whatever may go wrong goes wrong before the declaration file is written.

Results:
* `startWith_changes`: what a run changes whose arguments and settings have been read.
* `run_changes_only_output`: what a run changes.
-/
namespace TypeBridge.CommandLine

section OneShot

variable [Collection.FaultFinder] {arguments : List String} {environment : List (String × String)} {steps : List WatchStep}
  {system : FileSystem} {asked : Arguments}

/-- What it means that a run changes no file when it ends with a complaint, and that it writes the declaration file and
changes no other one when it generates without a complaint. -/
structure ChangesOnlyOutput (asked : Arguments) (settings : Settings) (before : FileSystem) (exit : Nat)
    (after : FileSystem) : Prop where
  keeps : exit ≠ 0 → KeepsFiles before after
  writes : exit = 0 → settings.isEnabled = true →
    ∃ options, optionsFor before (pathsFor asked settings).typeMap = .ok options ∧
      WritesFile before after (pathsFor asked settings).output
        (Text.encodeUtf8 (Generation.declarationText options before (pathsFor asked settings).input).toList)

theorem startWith_changes (hworking : system.HasWorkingDirectory) (hwatch : asked.watch = false) (settings : Settings)
    (console : Console) :
    ∃ exit state, startWith asked settings system console = .ended exit state ∧
      ChangesOnlyOutput asked settings system exit state.system := by
  rcases startWith_cases asked settings system console with
    ⟨exit, said, hstart, hexit⟩ | ⟨-, -, -, options, hoptions, hstart⟩
  · refine ⟨exit, _, hstart, fun _ => .refl system, fun hzero henabled => ?_⟩
    rw [hexit.1 hzero] at henabled
    cases henabled
  · rw [hwatch] at hstart
    rcases generate_cases _ hworking console with ⟨after, said, hend, hwrites⟩ | ⟨left, said, message, hend, hkeeps⟩
    · exact ⟨0, _, hstart.trans hend, fun hzero => absurd rfl hzero, fun _ _ => ⟨options, hoptions, hwrites⟩⟩
    · exact ⟨1, _, hstart.trans hend, fun _ => hkeeps, fun hone => absurd hone (by decide)⟩

/-- A run that does not watch and ends with a complaint changes no file. One that ends without a complaint, when
definitions are to be generated, writes the declaration file for the sources that there are, whatever is wrong with
some of them, and changes no other file. It breaks off only while the settings are read. -/
theorem run_changes_only_output (hworking : system.HasWorkingDirectory)
    (hwatch : ∀ asked, request arguments = .ok (.run asked) → asked.watch = false) :
    (∀ fault, run arguments environment steps system = .error fault → Settings.content system = .error fault) ∧
    ∀ outcome, run arguments environment steps system = .ok outcome →
      (outcome.exit ≠ 0 → KeepsFiles system outcome.system) ∧
      (outcome.exit = 0 → ∀ asked content, request arguments = .ok (.run asked) →
        Settings.content system = .ok content → (Settings.ofContent environment content).isEnabled = true →
          let paths := pathsFor asked (Settings.ofContent environment content)
          ∃ options, optionsFor system paths.typeMap = .ok options ∧
            WritesFile system outcome.system paths.output
              (Text.encodeUtf8 (Generation.declarationText options system paths.input).toList)) := by
  rw [run, start]
  cases hrequest : request arguments with
  | error fault =>
    refine ⟨fun _ h => (nomatch h), fun outcome h => ?_⟩
    cases h
    exact ⟨fun _ => .refl system, fun htwo => (nomatch htwo)⟩
  | ok asks =>
    cases asks with
    | help =>
      refine ⟨fun _ h => (nomatch h), fun outcome h => ?_⟩
      cases h
      exact ⟨fun _ => .refl system, fun _ _ _ h => (nomatch h)⟩
    | run asked =>
      cases hcontent : Settings.content system with
      | error fault => exact ⟨fun _ h => by cases h; rfl, fun _ h => (nomatch h)⟩
      | ok content =>
        obtain ⟨exit, state, hstart, hchanges⟩ := startWith_changes hworking (hwatch asked hrequest)
          (Settings.ofContent environment content) (({} : Console).complainAll (content.faults.map Settings.warning))
        simp only [hstart, Stage.finish]
        refine ⟨fun _ h => (nomatch h), fun outcome h => ?_⟩
        cases h
        refine ⟨hchanges.keeps, fun hzero asked' content' hasked hcontent' => ?_⟩
        cases hasked
        cases hcontent'
        exact hchanges.writes hzero

end OneShot

/-- A source that is to be written to a directory that is not there yet. -/
def singleSource : FileSystem :=
  { tree := .directory [("src", .directory [("A.cs", .file (Text.encodeUtf8 "class A \x7b \x7d".toList))])] }

/-- The directory is made, and the declaration file is the only new file. -/
theorem run_changes_only_output_singleSource :
    singleSource.HasWorkingDirectory ∧
      (∀ asked, request ["src", "types/a.d.ts"] = .ok (.run asked) → asked.watch = false) ∧
      ∃ outcome, run ["src", "types/a.d.ts"] [] [] singleSource = .ok outcome ∧ outcome.exit = 0 ∧
        WritesFile singleSource outcome.system (.ofText "types/a.d.ts")
          (Text.encodeUtf8 (Generation.declarationText {} singleSource (.ofText "src")).toList) := by
  have hworking : singleSource.HasWorkingDirectory := ⟨_, rfl⟩
  have hrequest : request ["src", "types/a.d.ts"] =
      .ok (.run { input := some "src", output := some "types/a.d.ts" }) := by rfl
  have hwatch : ∀ asked, request ["src", "types/a.d.ts"] = .ok (.run asked) → asked.watch = false := by
    intro asked h
    rw [hrequest] at h
    cases h
    rfl
  have hexit : ((run ["src", "types/a.d.ts"] [] [] singleSource).toOption.map (·.exit)) = some 0 := by decide +kernel
  refine ⟨hworking, hwatch, ?_⟩
  cases hrun : run ["src", "types/a.d.ts"] [] [] singleSource with
  | error fault =>
    rw [hrun] at hexit
    cases hexit
  | ok outcome =>
    rw [hrun] at hexit
    have hzero : outcome.exit = 0 := Option.some.inj hexit
    have hcontent : Settings.content singleSource = .ok {} := by rfl
    obtain ⟨options, hoptions, hwrites⟩ :=
      ((run_changes_only_output hworking hwatch).2 outcome hrun).2 hzero _ _ hrequest hcontent (by decide +kernel)
    cases hoptions
    exact ⟨outcome, rfl, hzero, hwrites⟩

end TypeBridge.CommandLine
