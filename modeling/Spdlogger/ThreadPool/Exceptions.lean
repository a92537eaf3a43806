import Spdlogger.Library.History
import Spdlogger.ThreadPool.Accounting

namespace spdlogger.thread_pool

variable {maxThreads : Nat} {Tid Fn Exception : Type}

/-- A `wait` has rethrown. -/
def LogEntry.isRethrow : LogEntry Exception → Bool
  | .waited (some _) => true
  | _ => false

/-- The exception that a worker has recorded. -/
def LogEntry.recorded : LogEntry Exception → Option Exception
  | .caught _ exception => some exception
  | _ => none

/-- The exception that a `wait` has rethrown. -/
def LogEntry.rethrown : LogEntry Exception → Option Exception
  | .waited rethrown => rethrown
  | _ => none

/-- The task that is through. -/
def LogEntry.finishedId : LogEntry Exception → Option Int
  | .finished id => some id
  | _ => none

/-- The exceptions of tasks, in the order in which they were caught. -/
def recorded (log : List (LogEntry Exception)) : List Exception := log.filterMap LogEntry.recorded

/-- The exceptions that came out of `wait`. -/
def rethrown (log : List (LogEntry Exception)) : List Exception := log.filterMap LogEntry.rethrown

/-- The current round: what happened after the last exception came out of `wait`. -/
def sinceRethrow (log : List (LogEntry Exception)) : List (LogEntry Exception) :=
  history.since LogEntry.isRethrow log

/-- What is recorded in two logs is recorded in the one and in the other. -/
@[simp] theorem recorded_append (first second : List (LogEntry Exception)) :
    recorded (first ++ second) = recorded first ++ recorded second :=
  List.filterMap_append

/-- What is rethrown in two logs is rethrown in the one and in the other. -/
@[simp] theorem rethrown_append (first second : List (LogEntry Exception)) :
    rethrown (first ++ second) = rethrown first ++ rethrown second :=
  List.filterMap_append

/-- What a step does to the exceptions and to the log. It leaves both alone, with
the workers that are through with their function staying where they are; it is the
critical section of the handler; it retires a task; or it leaves a `wait`. -/
inductive ExceptionMove (s next : State maxThreads Tid Fn Exception) : Prop where
  | quiet (hlog : next.log = s.log) (hfirst : next.firstException = s.firstException)
      (hfinished : next.finished = s.finished)
      (hsubmitted : s.submitted <+: next.submitted)
      (hretiring : ∀ worker task, s.workers worker = .retiring task →
        next.workers worker = .retiring task)
  | caught (worker : Fin maxThreads) (task : QueuedTask Fn) (exception : Exception)
      (hphase : s.workers worker = .caught task exception)
      (hworkers : next.workers = Function.update s.workers worker (.retiring task))
      (hlog : next.log = s.log ++ [.caught task.id exception])
      (hfirst : next.firstException = s.firstException.or (some exception))
      (hfinished : next.finished = s.finished) (hsubmitted : s.submitted <+: next.submitted)
  | retired (worker : Fin maxThreads) (task : QueuedTask Fn)
      (hphase : s.workers worker = .retiring task)
      (hworkers : next.workers = Function.update s.workers worker .acquiring)
      (hlog : next.log = s.log ++ [.finished task.id])
      (hfirst : next.firstException = s.firstException)
      (hfinished : next.finished = s.finished ++ [task.id])
      (hsubmitted : s.submitted <+: next.submitted)
  | waited (hdone : s.allDone) (hlog : next.log = s.log ++ [.waited s.firstException])
      (hfirst : next.firstException = none) (hfinished : next.finished = s.finished)
      (hworkers : next.workers = s.workers) (hsubmitted : s.submitted <+: next.submitted)

/-- Moving a worker that retires nothing leaves those that do. -/
theorem State.retiring_of_setWorker {s : State maxThreads Tid Fn Exception}
    {worker : Fin maxThreads} {phase : WorkerPhase Fn Exception}
    (hbefore : ∀ task, s.workers worker ≠ .retiring task) (other : Fin maxThreads)
    (task : QueuedTask Fn) (hother : s.workers other = .retiring task) :
    (s.setWorker worker phase).workers other = .retiring task :=
  threads.update_of_phase_ne hother (hbefore task)

theorem retiring_wake {phase : WorkerPhase Fn Exception} {task : QueuedTask Fn}
    (hphase : phase = .retiring task) : (workCondition Fn Exception).wake phase = .retiring task := by
  rw [hphase]
  rfl

variable [DecidableEq Tid]

/-- A notification leaves the exceptions alone. -/
theorem ExceptionMove.of_notify {s : State maxThreads Tid Fn Exception}
    (client : Client Tid maxThreads) (target : Option (Fin maxThreads)) :
    ExceptionMove s { s.setClient client .idle with
      workers := (workCondition Fn Exception).notifyOne s.workers target } := by
  refine .quiet rfl rfl rfl List.prefix_rfl fun worker task hretiring => ?_
  cases target with
  | none => exact hretiring
  | some target =>
    show Function.update s.workers target _ worker = _
    by_cases hworker : worker = target
    · rw [hworker, Function.update_self]
      exact retiring_wake (hworker ▸ hretiring)
    · rw [Function.update_of_ne hworker, hretiring]

/-- Every step is one of these moves. -/
theorem ExceptionMove.of_step {s next : State maxThreads Tid Fn Exception}
    {action : Action maxThreads Tid Fn Exception} (hstep : s.step action = some next) :
    ExceptionMove s next := by
  cases (State.move_of_step hstep).2 with
  | submit => exact .quiet rfl rfl rfl (List.prefix_append _ _) fun _ _ => id
  | notify client target => exact .of_notify client target
  | wait | sleep | spuriousDone | destruct | stop | join | destroy =>
    exact .quiet rfl rfl rfl List.prefix_rfl fun _ _ => id
  | wake => exact .quiet rfl rfl rfl List.prefix_rfl fun _ _ => retiring_wake
  | pass client hclient hdone => exact .waited hdone rfl rfl rfl rfl List.prefix_rfl
  | record worker task exception hphase =>
    exact .caught worker task exception hphase rfl rfl rfl rfl List.prefix_rfl
  | retire worker task hphase =>
    exact .retired worker task hphase rfl rfl rfl rfl List.prefix_rfl
  | block _ hphase | exit _ hphase | dequeue _ _ _ hphase | invoke _ _ hphase | returns _ _ hphase
  | throws _ _ _ hphase | spuriousWork _ hphase =>
    refine .quiet rfl rfl rfl List.prefix_rfl ?_
    exact State.retiring_of_setWorker (by simp [hphase])

/-- Ids that are distinct now have been so all along. -/
theorem State.DistinctIds.of_step {s next : State maxThreads Tid Fn Exception}
    {action : Action maxThreads Tid Fn Exception} (hnext : next.DistinctIds)
    (hstep : s.step action = some next) : s.DistinctIds := by
  have hsubmitted : s.submitted <+: next.submitted := by
    cases ExceptionMove.of_step hstep <;> assumption
  obtain ⟨more, hmore⟩ := hsubmitted
  unfold State.DistinctIds at hnext ⊢
  rw [← hmore, ids_append, Multiset.nodup_add] at hnext
  exact hnext.1

end spdlogger.thread_pool
