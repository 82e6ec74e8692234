/-!
# Workers

Tasks that several workers share. A worker picks up the first task that waits, and finishes it some time
later; in which order the workers do so is left open. Each result is kept with the number of its task, so
that in the end the results can be put in the order of the tasks. A schedule is what some workers do until all tasks
are finished.

* `results_eq_map`: once all tasks are finished, their results do not depend on the order of events.
* `isDone_turns`: workers that take turns finish all tasks.
-/
namespace TypeBridge.Collection

variable {α β : Type}

/-- What a worker does. -/
inductive WorkEvent where
  | pick (worker : Nat)
  | finish (worker : Nat)
  deriving DecidableEq, Repr

/-- The worker that does something. -/
def WorkEvent.worker : WorkEvent → Nat
  | .pick worker => worker
  | .finish worker => worker

/-- Tasks with their numbers: those that wait, those that are worked on, with the worker, and the results
of those that are finished.
Mirrors the pool of `collect_declarations`. -/
structure Workload (α β : Type) where
  waiting : List (α × Nat)
  running : List (Nat × α × Nat) := []
  finished : List (β × Nat) := []

namespace Workload

/-- The tasks for some inputs, all of which wait. -/
def ofInputs (inputs : List α) : Workload α β := { waiting := inputs.zipIdx }

/-- Whether all tasks are finished. -/
def isDone (load : Workload α β) : Bool := load.waiting.isEmpty && load.running.isEmpty

/-- The result of a task, with its number. -/
def perform (task : α → β) (numbered : α × Nat) : β × Nat := (task numbered.1, numbered.2)

/-- What an event changes. A worker that is busy picks up nothing. -/
def step (task : α → β) (load : Workload α β) : WorkEvent → Workload α β
  | .pick worker =>
    match load.waiting with
    | [] => load
    | first :: rest =>
      if load.running.any (·.1 == worker) then load
      else { load with waiting := rest, running := (worker, first) :: load.running }
  | .finish worker =>
    let done := load.running.filter (·.1 == worker)
    { load with
      running := load.running.filter fun entry => !(entry.1 == worker)
      finished := done.map (fun entry => perform task entry.2) ++ load.finished }

/-- What some events change. -/
def run (task : α → β) (load : Workload α β) (events : List WorkEvent) : Workload α β :=
  events.foldl (step task) load

/-- The results in the order of the tasks. -/
def results (load : Workload α β) : List β :=
  (load.finished.mergeSort fun a b => a.2 ≤ b.2).map (·.1)

/-- The results that there are and those that are to come. -/
def allResults (task : α → β) (load : Workload α β) : List (β × Nat) :=
  load.waiting.map (perform task) ++ (load.running.map (fun entry => perform task entry.2) ++ load.finished)

theorem allResults_step (task : α → β) (load : Workload α β) (event : WorkEvent) :
    ((load.step task event).allResults task).Perm (load.allResults task) := by
  cases event with
  | pick worker =>
    match h : load.waiting with
    | [] => simp [step, h]
    | first :: rest =>
      by_cases hb : load.running.any (·.1 == worker) = true
      · simp [step, h, hb]
      · simp [step, h, hb, allResults, List.perm_middle]
  | finish worker =>
    simp only [step, allResults]
    refine .append_left _ ?_
    rw [← List.append_assoc, ← List.map_append]
    refine .append_right _ (.map _ ?_)
    exact List.perm_append_comm.trans (List.filter_append_perm _ _)

theorem allResults_run (task : α → β) (events : List WorkEvent) (load : Workload α β) :
    ((load.run task events).allResults task).Perm (load.allResults task) := by
  induction events generalizing load with
  | nil => exact .refl _
  | cons event events ih => exact (ih _).trans (allResults_step task load event)

theorem finished_of_isDone (task : α → β) (load : Workload α β) (h : load.isDone = true) :
    load.finished = load.allResults task := by
  simp only [isDone, Bool.and_eq_true, List.isEmpty_iff] at h
  simp [allResults, h.1, h.2]

theorem pairwise_zipIdx (inputs : List α) (start : Nat) :
    (inputs.zipIdx start).Pairwise fun a b => a.2 < b.2 := by
  induction inputs generalizing start with
  | nil => exact .nil
  | cons a inputs ih =>
    rw [List.zipIdx_cons]
    refine .cons (fun b hb => ?_) (ih _)
    exact List.le_snd_of_mem_zipIdx hb

theorem mergeSort_of_perm {l sorted : List (β × Nat)} (h : l.Perm sorted)
    (hs : sorted.Pairwise fun a b => a.2 < b.2) : (l.mergeSort fun a b => a.2 ≤ b.2) = sorted := by
  have hp := (List.mergeSort_perm l fun a b => decide (a.2 ≤ b.2)).trans h
  refine @List.Perm.eq_of_pairwise _ (fun a b => decide (a.2 ≤ b.2) = true) _ _ ?_ ?_ ?_ hp
  · intro a b ha hb hab hba
    have hab := of_decide_eq_true hab
    have hba := of_decide_eq_true hba
    have ha := hp.mem_iff.1 ha
    obtain ⟨i, hi, rfl⟩ := List.getElem_of_mem ha
    obtain ⟨j, hj, rfl⟩ := List.getElem_of_mem hb
    have hs := List.pairwise_iff_getElem.1 hs
    rcases Nat.lt_trichotomy i j with h | h | h
    · have := hs i j hi hj h; omega
    · subst h; rfl
    · have := hs j i hj hi h; omega
  · exact List.pairwise_mergeSort (fun a b c => by simp; omega) (fun a b => by simp; omega) l
  · exact hs.imp fun h => decide_eq_true (Nat.le_of_lt h)

theorem results_eq_map (task : α → β) (inputs : List α) (events : List WorkEvent)
    (h : ((ofInputs inputs).run task events).isDone = true) :
    ((ofInputs inputs).run task events).results = inputs.map task := by
  have hp := allResults_run task events (ofInputs inputs)
  rw [← finished_of_isDone task _ h] at hp
  have hs : ((inputs.zipIdx).map (perform task)).Pairwise fun a b => a.2 < b.2 :=
    List.pairwise_map.2 (pairwise_zipIdx inputs 0)
  have he : (ofInputs inputs : Workload α β).allResults task = (inputs.zipIdx).map (perform task) := by
    simp [allResults, ofInputs]
  rw [he] at hp
  rw [results, mergeSort_of_perm hp hs, List.map_map]
  have : (Prod.fst ∘ perform task) = task ∘ Prod.fst := rfl
  rw [this, ← List.map_map, List.zipIdx_map_fst]

/-! ## Taking turns -/

/-- The events when some workers take turns with so many tasks. -/
def turns (workers count : Nat) : List WorkEvent :=
  (List.range count).flatMap fun i => [.pick (i % workers), .finish (i % workers)]

/-- The results of a task for some inputs, by workers that take turns. -/
def share (task : α → β) (workers : Nat) (inputs : List α) : List β :=
  ((ofInputs inputs).run task (turns workers inputs.length)).results

theorem run_turn (task : α → β) (worker : Nat) (load : Workload α β) (h : load.running = []) :
    (load.run task [.pick worker, .finish worker]).running = [] ∧
      (load.run task [.pick worker, .finish worker]).waiting = load.waiting.drop 1 := by
  cases hw : load.waiting <;> simp [run, step, h, hw]

theorem run_flatMap_turn (task : α → β) (worker : Nat → Nat) (numbers : List Nat)
    (load : Workload α β) (h : load.running = []) :
    (load.run task (numbers.flatMap fun i => [.pick (worker i), .finish (worker i)])).running = [] ∧
      (load.run task (numbers.flatMap fun i => [.pick (worker i), .finish (worker i)])).waiting =
        load.waiting.drop numbers.length := by
  induction numbers generalizing load with
  | nil => simp [run, h]
  | cons i numbers ih =>
    have hi := run_turn task (worker i) load h
    have ht := ih (load.run task [.pick (worker i), .finish (worker i)]) hi.1
    simp only [List.flatMap_cons, run, List.foldl_append] at ht ⊢
    refine ⟨ht.1, ?_⟩
    rw [ht.2]
    have := hi.2
    simp only [run] at this
    rw [this, List.drop_drop, List.length_cons, Nat.add_comm]

theorem isDone_turns (task : α → β) (workers : Nat) (inputs : List α) :
    ((ofInputs inputs).run task (turns workers inputs.length)).isDone = true := by
  have h := run_flatMap_turn task (· % workers) (List.range inputs.length)
    (ofInputs inputs : Workload α β) rfl
  simp only [isDone, turns, h.1, h.2]
  simp [ofInputs]

theorem share_eq_map (task : α → β) (workers : Nat) (inputs : List α) :
    share task workers inputs = inputs.map task :=
  results_eq_map task inputs _ (isDone_turns task workers inputs)

end Workload

/-! ## Schedules -/

/-- What some workers do until all tasks for some inputs are finished. -/
structure Schedule (task : α → β) (workers : Nat) (inputs : List α) where
  events : List WorkEvent
  worker_lt : ∀ event ∈ events, event.worker < workers
  isDone : ((Workload.ofInputs inputs).run task events).isDone = true

/-- The results of the tasks, in the order of the inputs. -/
def Schedule.results {task : α → β} {workers : Nat} {inputs : List α} (schedule : Schedule task workers inputs) :
    List β :=
  ((Workload.ofInputs inputs).run task schedule.events).results

end TypeBridge.Collection
