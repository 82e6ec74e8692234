import TypeBridge.Collection.Workers

/-!
# Schedules

How some workers may come to finish the tasks that they share: who picks up a task or finishes one, and when. A worker
that is busy picks up nothing, and one that is idle finishes nothing, so no order of events does any harm. None leads
into a dead end either: whatever the workers have done, they can go on until all tasks are finished.

Results:
* `Staffed.run`: who works on a task in the course of a run.
* `exists_isDone_append`: each run can go on until it is done.
* `Schedule.results_eq_map`: the results of all schedules.
-/
namespace TypeBridge.Collection

variable {α β : Type}

namespace Workload

variable {task : α → β} {workers : Nat} {load : Workload α β}

/-! ## Who works on a task -/

/-- What it means that no others than so many workers are busy, each with one task. -/
structure Staffed (workers : Nat) (load : Workload α β) : Prop where
  lt : ∀ entry ∈ load.running, entry.1 < workers
  nodup : (load.running.map (·.1)).Nodup

theorem Staffed.ofInputs (workers : Nat) (inputs : List α) : Staffed workers (ofInputs inputs : Workload α β) :=
  ⟨fun _ h => (nomatch h), .nil⟩

theorem Staffed.step (h : Staffed workers load) {event : WorkEvent} (hevent : event.worker < workers) :
    Staffed workers (load.step task event) := by
  cases event with
  | pick worker =>
    cases hwaiting : load.waiting with
    | nil => simpa only [Workload.step, hwaiting] using h
    | cons first rest =>
      by_cases hbusy : load.running.any (·.1 == worker) = true
      · simpa only [Workload.step, hwaiting, hbusy, if_true] using h
      · simp only [Workload.step, hwaiting, hbusy, Bool.false_eq_true, if_false]
        have hfresh : worker ∉ load.running.map (·.1) := by
          intro hmem
          obtain ⟨entry, hentry, hworker⟩ := List.mem_map.1 hmem
          exact hbusy (List.any_eq_true.2 ⟨entry, hentry, beq_iff_eq.2 hworker⟩)
        exact ⟨List.forall_mem_cons.2 ⟨hevent, h.lt⟩, List.nodup_cons.2 ⟨hfresh, h.nodup⟩⟩
  | finish worker =>
    have hsublist : List.Sublist (load.running.filter fun entry => !(entry.1 == worker)) load.running :=
      List.filter_sublist
    exact ⟨fun entry hentry => h.lt entry (hsublist.subset hentry), h.nodup.sublist (hsublist.map _)⟩

theorem Staffed.run (h : Staffed workers load) {events : List WorkEvent}
    (hevents : ∀ event ∈ events, event.worker < workers) : Staffed workers (load.run task events) := by
  induction events generalizing load with
  | nil => exact h
  | cons event events ih =>
    obtain ⟨hevent, hevents⟩ := List.forall_mem_cons.1 hevents
    exact ih (h.step hevent) hevents

/-! ## Finishing -/

theorem run_append (task : α → β) (load : Workload α β) (events more : List WorkEvent) :
    load.run task (events ++ more) = (load.run task events).run task more :=
  List.foldl_append

/-- When some workers finish what they work on, the others go on with their tasks. -/
theorem run_finish (task : α → β) (load : Workload α β) (numbers : List Nat) :
    (load.run task (numbers.map .finish)).running = load.running.filter (fun entry => entry.1 ∉ numbers) ∧
      (load.run task (numbers.map .finish)).waiting = load.waiting := by
  induction numbers generalizing load with
  | nil => exact ⟨(List.filter_eq_self.2 (by simp)).symm, rfl⟩
  | cons number numbers ih =>
    obtain ⟨hrunning, hwaiting⟩ := ih (load.step task (.finish number))
    refine ⟨hrunning.trans ?_, hwaiting⟩
    simp only [step, List.filter_filter]
    refine List.filter_congr fun entry _ => ?_
    simp only [List.mem_cons, not_or, Bool.decide_and, decide_not, Bool.and_comm, Bool.beq_eq_decide_eq]

/-- When all workers finish what they work on, no task is worked on any more. -/
theorem Staffed.running_run_finish (h : Staffed workers load) (task : α → β) :
    (load.run task ((List.range workers).map .finish)).running = [] := by
  rw [(run_finish task load _).1, List.filter_eq_nil_iff]
  intro entry hentry
  simpa using h.lt entry hentry

theorem worker_lt_of_mem_turns (hworkers : 0 < workers) {count : Nat} :
    ∀ event ∈ turns workers count, event.worker < workers := by
  intro event hevent
  obtain ⟨i, -, hevent⟩ := List.mem_flatMap.1 hevent
  simp only [List.mem_cons, List.not_mem_nil, or_false] at hevent
  obtain rfl | rfl := hevent <;> exact Nat.mod_lt i hworkers

/-- Whatever some workers have done, they can go on until all tasks are finished. -/
theorem exists_isDone_append (task : α → β) (hworkers : 0 < workers) (inputs : List α) {events : List WorkEvent}
    (hevents : ∀ event ∈ events, event.worker < workers) :
    ∃ more, (∀ event ∈ more, event.worker < workers) ∧
      ((ofInputs inputs).run task (events ++ more)).isDone = true := by
  let load := (ofInputs inputs).run task events
  have hstaffed : Staffed workers load := (Staffed.ofInputs workers inputs).run hevents
  -- First all workers finish what they work on. Then they take turns with what waits.
  let finishing := (List.range workers).map WorkEvent.finish
  let idle := load.run task finishing
  have hidle : idle.running = [] := hstaffed.running_run_finish task
  refine ⟨finishing ++ turns workers idle.waiting.length, fun event hevent => ?_, ?_⟩
  · obtain hevent | hevent := List.mem_append.1 hevent
    · obtain ⟨number, hnumber, rfl⟩ := List.mem_map.1 hevent
      exact List.mem_range.1 hnumber
    · exact worker_lt_of_mem_turns hworkers event hevent
  · have hturns := run_flatMap_turn task (· % workers) (List.range idle.waiting.length) idle hidle
    rw [run_append, run_append]
    change (idle.run task (turns workers idle.waiting.length)).isDone = true
    rw [isDone, turns, hturns.1, hturns.2, List.length_range, List.drop_length]
    rfl

end Workload

/-! ## Schedules -/

namespace Schedule

variable {task : α → β} {workers : Nat} {inputs : List α}

theorem results_eq_map (schedule : Schedule task workers inputs) : schedule.results = inputs.map task :=
  Workload.results_eq_map task inputs schedule.events schedule.isDone

/-- Whatever some workers have done, it is the beginning of a schedule. -/
theorem exists_of_events (task : α → β) (hworkers : 0 < workers) (inputs : List α) {events : List WorkEvent}
    (hevents : ∀ event ∈ events, event.worker < workers) :
    ∃ schedule : Schedule task workers inputs, events <+: schedule.events := by
  obtain ⟨more, hmore, hdone⟩ := Workload.exists_isDone_append task hworkers inputs hevents
  exact ⟨⟨events ++ more, List.forall_mem_append.2 ⟨hevents, hmore⟩, hdone⟩, List.prefix_append events more⟩

end Schedule

end TypeBridge.Collection
