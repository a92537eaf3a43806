import Spdlogger.ThreadPool.Exceptions
import Spdlogger.ThreadPool.InsideMoves
import Spdlogger.ThreadPool.Round

namespace spdlogger.thread_pool

variable {maxThreads : Nat} {Exception : Type}

/-- How a `wait` came back. -/
def LogEntry.result : LogEntry Exception → Option (Option Exception)
  | .waited result => some result
  | _ => none

/-- The client submits the tasks in their order and then waits, once; each task
ends as it is given, and none calls the pool. -/
def boundedAllowed [DecidableEq Exception] (tasks : List (Option Exception))
    (s : State maxThreads Unit (Option Exception) Exception) :
    Action maxThreads Unit (Option Exception) Exception → Bool
  | .submit client function =>
    client = .caller () && tasks[s.submitted.length]? = some function
  | .wait client =>
    client = .caller () && s.submitted.length = tasks.length &&
      (s.log.findSome? LogEntry.result).isNone
  | .returns worker =>
    match s.workers worker with
    | .invoking task => task.function = none
    | _ => false
  | .throws worker exception =>
    match s.workers worker with
    | .invoking task => task.function = some exception
    | _ => false
  | .destructorStep => false
  | .notify _ _ | .testDone _ | .spuriousDone _ | .workerStep _ | .spuriousWork _ => true

/-- The round on a pool with a limit. -/
def boundedRound [DecidableEq Exception] (maxThreads : Nat) (tasks : List (Option Exception)) :
    transition.Machine (State maxThreads Unit (Option Exception) Exception)
      (Action maxThreads Unit (Option Exception) Exception) :=
  (poolMachine maxThreads Unit (Option Exception) Exception).restrict (boundedAllowed tasks)

/-- What the round shows of the pool. -/
def State.observe (s : State maxThreads Unit (Option Exception) Exception) :
    Observation Exception :=
  ⟨s.invoked.map Int.toNat, s.finished.map Int.toNat, s.log.findSome? LogEntry.result⟩

/-- A task a worker holds has been dequeued, and when it has thrown, its exception
is with the worker or in the log. -/
def WorkerPhase.Honest (dequeued : List (QueuedTask (Option Exception)))
    (log : List (LogEntry Exception)) : WorkerPhase (Option Exception) Exception → Prop
  | .acquiring | .blocked | .exited => True
  | .dequeued task | .invoking task => task ∈ dequeued
  | .caught task exception => task ∈ dequeued ∧ task.function = some exception
  | .retiring task => task ∈ dequeued ∧ (task.function ≠ none → recorded log ≠ [])

/-- Exceptions come from the tasks that throw, and each of these leaves one. -/
structure State.Honest (s : State maxThreads Unit (Option Exception) Exception) : Prop where
  workers : ∀ worker, (s.workers worker).Honest s.dequeued s.log
  finished : ∀ id ∈ s.finished, ∃ task ∈ s.dequeued,
    task.id = id ∧ (task.function ≠ none → recorded s.log ≠ [])
  origins : ∀ exception ∈ recorded s.log, some exception ∈ s.dequeued.map QueuedTask.function

/-- What has been recorded stays recorded. -/
theorem recorded_append_ne_nil {log : List (LogEntry Exception)} (h : recorded log ≠ [])
    (more : List (LogEntry Exception)) : recorded (log ++ more) ≠ [] := by
  rw [recorded_append]
  exact List.append_ne_nil_of_left_ne_nil h _

/-- More tasks and a longer log change nothing for a worker. -/
theorem WorkerPhase.Honest.mono {dequeued later : List (QueuedTask (Option Exception))}
    {log more : List (LogEntry Exception)} {phase : WorkerPhase (Option Exception) Exception}
    (h : phase.Honest dequeued log) (hsubset : dequeued ⊆ later) :
    phase.Honest later (log ++ more) := by
  have hlog (hrecorded : recorded log ≠ []) :
      recorded (log ++ more) ≠ [] := by
    rw [recorded_append]
    exact List.append_ne_nil_of_left_ne_nil hrecorded _
  cases phase with
  | acquiring | blocked | exited => trivial
  | dequeued task | invoking task => exact hsubset h
  | caught task exception => exact ⟨hsubset h.1, h.2⟩
  | retiring task => exact ⟨hsubset h.1, fun hthrows => hlog (h.2 hthrows)⟩

theorem WorkerPhase.Honest.wake {dequeued : List (QueuedTask (Option Exception))}
    {log : List (LogEntry Exception)} {phase : WorkerPhase (Option Exception) Exception}
    (h : phase.Honest dequeued log) :
    ((workCondition (Option Exception) Exception).wake phase).Honest dequeued log := by
  cases phase with
  | blocked => trivial
  | _ => exact h

/-- A step that adds to the log, where what it adds and what it finishes is right. -/
theorem State.Honest.move {s next : State maxThreads Unit (Option Exception) Exception}
    (h : s.Honest) (more : List (LogEntry Exception)) (hlog : next.log = s.log ++ more)
    (hdequeued : s.dequeued ⊆ next.dequeued)
    (hworkers : ∀ worker, (next.workers worker).Honest next.dequeued next.log)
    (hfinished : ∀ id ∈ next.finished, id ∈ s.finished ∨ ∃ task ∈ next.dequeued,
      task.id = id ∧ (task.function ≠ none → recorded next.log ≠ []))
    (hrecorded : ∀ exception ∈ recorded more,
      some exception ∈ next.dequeued.map QueuedTask.function) : next.Honest := by
  refine ⟨hworkers, fun id hid => ?_, fun exception hmem => ?_⟩
  · obtain hearlier | hnew := hfinished id hid
    · obtain ⟨task, htask, hsame, hthrows⟩ := h.finished id hearlier
      refine ⟨task, hdequeued htask, hsame, fun hfunction => ?_⟩
      rw [hlog]
      exact recorded_append_ne_nil (hthrows hfunction) more
    · exact hnew
  · rw [hlog, recorded_append, List.mem_append] at hmem
    obtain hearlier | hnew := hmem
    · exact List.map_subset _ hdequeued (h.origins exception hearlier)
    · exact hrecorded exception hnew

/-- The same for a step that ends no task and records no exception. -/
theorem State.Honest.frame {s next : State maxThreads Unit (Option Exception) Exception}
    (h : s.Honest) (more : List (LogEntry Exception)) (hlog : next.log = s.log ++ more)
    (hquiet : recorded more = []) (hdequeued : s.dequeued ⊆ next.dequeued)
    (hfinished : next.finished = s.finished)
    (hworkers : ∀ worker, (next.workers worker).Honest next.dequeued next.log) : next.Honest := by
  refine h.move more hlog hdequeued hworkers (fun id hid => .inl (hfinished ▸ hid)) ?_
  rw [hquiet]
  simp

/-- The other workers keep what they have while one of them moves. -/
theorem State.Honest.setWorker {s : State maxThreads Unit (Option Exception) Exception}
    (h : s.Honest) {worker : Fin maxThreads} {phase : WorkerPhase (Option Exception) Exception}
    {dequeued : List (QueuedTask (Option Exception))} {more : List (LogEntry Exception)}
    (hsubset : s.dequeued ⊆ dequeued) (hphase : phase.Honest dequeued (s.log ++ more))
    (other : Fin maxThreads) :
    ((s.setWorker worker phase).workers other).Honest dequeued (s.log ++ more) := by
  rw [State.workers_setWorker]
  by_cases hsame : other = worker
  · rw [hsame, Function.update_self]
    exact hphase
  · rw [Function.update_of_ne hsame]
    exact (h.workers other).mono hsubset

/-- A worker moves on without a word in the log. -/
theorem State.Honest.quiet {s next : State maxThreads Unit (Option Exception) Exception}
    (h : s.Honest) {worker : Fin maxThreads} (phase : WorkerPhase (Option Exception) Exception)
    (hworkers : next.workers = (s.setWorker worker phase).workers) (hlog : next.log = s.log)
    (hdequeued : s.dequeued ⊆ next.dequeued) (hfinished : next.finished = s.finished)
    (hphase : phase.Honest next.dequeued s.log) : next.Honest := by
  have hown : phase.Honest next.dequeued (s.log ++ []) := by simpa using hphase
  refine h.frame [] (by simp [hlog]) rfl hdequeued hfinished fun other => ?_
  rw [hworkers, hlog]
  simpa using h.setWorker hdequeued hown other

/-- The handler records the exception of a task that throws. -/
theorem State.Honest.record {s : State maxThreads Unit (Option Exception) Exception}
    (h : s.Honest) {worker : Fin maxThreads} {task : QueuedTask (Option Exception)}
    {exception : Exception} (hphase : s.workers worker = .caught task exception) :
    State.Honest { s.setWorker worker (.retiring task) with
      firstException := s.firstException.or (some exception)
      log := s.log ++ [.caught task.id exception] } := by
  have hown := h.workers worker
  rw [hphase] at hown
  obtain ⟨hmem, hfunction⟩ := hown
  refine h.move [.caught task.id exception] rfl (List.Subset.refl _) ?_ (fun id hid => .inl hid) ?_
  · refine h.setWorker (List.Subset.refl _) ⟨hmem, fun _ => ?_⟩
    simp [recorded, LogEntry.recorded]
  · intro other hother
    have hsame : other = exception := by
      simpa [recorded, LogEntry.recorded] using hother
    rw [hsame, ← hfunction]
    exact List.mem_map_of_mem hmem

/-- A task that is retired has left its exception. -/
theorem State.Honest.retire {s : State maxThreads Unit (Option Exception) Exception}
    (h : s.Honest) {worker : Fin maxThreads} {task : QueuedTask (Option Exception)}
    (hphase : s.workers worker = .retiring task) {inProgressTasks : Finset Int}
    {clients : Client Unit maxThreads → ClientPhase} :
    State.Honest { s.setWorker worker .acquiring with
      inProgressTasks
      clients
      finished := s.finished ++ [task.id]
      log := s.log ++ [.finished task.id] } := by
  have hown := h.workers worker
  rw [hphase] at hown
  obtain ⟨hmem, hthrows⟩ := hown
  refine h.move [.finished task.id] rfl (List.Subset.refl _) ?_ ?_ (by
    simp [recorded, LogEntry.recorded])
  · exact h.setWorker (List.Subset.refl _) trivial
  · intro id hid
    refine (List.mem_append.mp hid).imp_right fun hnew => ⟨task, hmem, ?_, fun hfunction => ?_⟩
    · exact (List.mem_singleton.mp hnew).symm
    · exact recorded_append_ne_nil (hthrows hfunction) _

/-- A notification of a client changes nothing about the exceptions. -/
theorem State.Honest.notify {s : State maxThreads Unit (Option Exception) Exception}
    (h : s.Honest) (client : Client Unit maxThreads) (target : Option (Fin maxThreads)) :
    State.Honest { s.setClient client .idle with
      workers := (workCondition (Option Exception) Exception).notifyOne s.workers target } := by
  have hsame : s.log = s.log ++ [] := (List.append_nil _).symm
  refine h.frame [] hsame rfl (List.Subset.refl _) rfl fun worker => ?_
  cases target with
  | none => exact h.workers worker
  | some target =>
    show (Function.update s.workers target _ worker).Honest s.dequeued s.log
    by_cases hworker : worker = target
    · rw [hworker, Function.update_self]
      exact (h.workers target).wake
    · rw [Function.update_of_ne hworker]
      exact h.workers worker

/-- The tasks end as they are given, and everything else leaves them alone. -/
theorem State.Honest.step [DecidableEq Exception] {tasks : List (Option Exception)}
    {s next : State maxThreads Unit (Option Exception) Exception} (h : s.Honest)
    {action : Action maxThreads Unit (Option Exception) Exception}
    (hallowed : boundedAllowed tasks s action = true) (hmove : s.Move action next) :
    next.Honest := by
  have hsame : s.log = s.log ++ [] := (List.append_nil _).symm
  cases hmove with
  | submit | wait | sleep | spuriousDone =>
    exact h.frame [] hsame rfl (List.Subset.refl _) rfl h.workers
  | notify client target => exact h.notify client target
  | pass =>
    refine h.frame [.waited s.firstException] rfl rfl (List.Subset.refl _) rfl ?_
    exact fun worker => (h.workers worker).mono (List.Subset.refl _)
  | block | exit | spuriousWork => exact h.quiet _ rfl rfl (List.Subset.refl _) rfl trivial
  | dequeue worker task =>
    refine h.quiet (.dequeued task) rfl rfl ?_ rfl ?_
    · exact List.subset_append_left _ _
    · exact List.mem_append_right _ (List.mem_singleton_self task)
  | invoke worker task hphase =>
    have hown := h.workers worker
    rw [hphase] at hown
    exact h.quiet (.invoking task) rfl rfl (List.Subset.refl _) rfl hown
  | record worker task exception hphase => exact h.record hphase
  | retire worker task hphase => exact h.retire hphase
  | returns worker task hphase =>
    have hown := h.workers worker
    rw [hphase] at hown
    simp only [boundedAllowed, hphase, decide_eq_true_eq] at hallowed
    refine h.quiet _ rfl rfl (List.Subset.refl _) rfl ⟨hown, fun hthrows => ?_⟩
    exact absurd hallowed hthrows
  | throws worker task exception hphase =>
    have hown := h.workers worker
    rw [hphase] at hown
    simp only [boundedAllowed, hphase, decide_eq_true_eq] at hallowed
    exact h.quiet _ rfl rfl (List.Subset.refl _) rfl ⟨hown, hallowed⟩
  | destruct | stop | wake | join | destroy => cases hallowed

end spdlogger.thread_pool
