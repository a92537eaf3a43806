import Spdlogger.ThreadPool.Exceptions
import Spdlogger.ThreadPool.ExactlyOnce

namespace spdlogger.thread_pool

variable {maxThreads : Nat} {Tid Fn Exception : Type}

/-- The id of the task whose exception an entry records, with the exception. -/
def LogEntry.caughtFrom : LogEntry Exception → Option (Int × Exception)
  | .caught id exception => some (id, exception)
  | _ => none

/-- The exceptions the handler has recorded, each with the id of its task. -/
def recordedFrom (log : List (LogEntry Exception)) : Multiset (Int × Exception) :=
  (log.filterMap LogEntry.caughtFrom : List (Int × Exception))

theorem recordedFrom_append (log : List (LogEntry Exception)) (entry : LogEntry Exception) :
    recordedFrom (log ++ [entry]) = recordedFrom log + recordedFrom [entry] := by
  rw [recordedFrom, List.filterMap_append, ← Multiset.coe_add]
  rfl

/-- The exception a worker is about to record, with the id of its task. -/
def WorkerPhase.unrecorded : WorkerPhase Fn Exception → Multiset (Int × Exception)
  | .caught task exception => {(task.id, exception)}
  | _ => 0

@[simp] theorem unrecorded_caught (task : QueuedTask Fn) (exception : Exception) :
    (.caught task exception : WorkerPhase Fn Exception).unrecorded = {(task.id, exception)} := rfl

theorem unrecorded_wake (phase : WorkerPhase Fn Exception) :
    ((workCondition Fn Exception).wake phase).unrecorded = phase.unrecorded := by
  cases phase <;> rfl

/-- Whatever a task has thrown is in the log, or its worker is about to put it
there; and nothing else is. -/
def State.Caught (s : State maxThreads Tid Fn Exception) : Prop :=
  (s.thrown : Multiset (Int × Exception)) =
    recordedFrom s.log + ∑ worker, (s.workers worker).unrecorded

/-- Steps in which no task throws and no exception is recorded. -/
theorem State.Caught.frame {s next : State maxThreads Tid Fn Exception} (h : s.Caught)
    (hthrown : next.thrown = s.thrown) (hlog : recordedFrom next.log = recordedFrom s.log)
    (hworkers : ∀ worker, (next.workers worker).unrecorded = (s.workers worker).unrecorded) :
    next.Caught := by
  unfold State.Caught
  rw [hthrown, hlog]
  simp only [hworkers]
  exact h

/-- A worker that moves on with its exception leaves everyone with theirs. -/
theorem State.unrecorded_setWorker {s : State maxThreads Tid Fn Exception}
    {worker : Fin maxThreads} {phase : WorkerPhase Fn Exception}
    (h : phase.unrecorded = (s.workers worker).unrecorded) (other : Fin maxThreads) :
    ((s.setWorker worker phase).workers other).unrecorded = (s.workers other).unrecorded := by
  by_cases hother : other = worker
  · simp [State.setWorker, hother, h]
  · simp [State.setWorker, hother]

theorem State.sum_unrecorded_setWorker (s : State maxThreads Tid Fn Exception)
    (worker : Fin maxThreads) (phase : WorkerPhase Fn Exception) :
    (∑ other, ((s.setWorker worker phase).workers other).unrecorded) +
        (s.workers worker).unrecorded =
      (∑ other, (s.workers other).unrecorded) + phase.unrecorded :=
  threads.sum_update_add WorkerPhase.unrecorded s.workers worker phase

/-- The function of a task is left by an exception. -/
theorem State.Caught.throws {s : State maxThreads Tid Fn Exception} (h : s.Caught)
    {worker : Fin maxThreads} {task : QueuedTask Fn} {exception : Exception}
    (hphase : s.workers worker = .invoking task) :
    State.Caught { s.setWorker worker (.caught task exception) with
      thrown := s.thrown ++ [(task.id, exception)] } := by
  have hsum := s.sum_unrecorded_setWorker worker (.caught task exception)
  have hnone : (s.workers worker).unrecorded = 0 := by
    rw [hphase]
    rfl
  rw [hnone, add_zero, unrecorded_caught] at hsum
  show (↑(s.thrown ++ [(task.id, exception)]) : Multiset (Int × Exception)) =
    recordedFrom s.log +
      ∑ other, ((s.setWorker worker (.caught task exception)).workers other).unrecorded
  rw [hsum, ← add_assoc, ← Multiset.coe_add, h]
  rfl

/-- The critical section of the handler. -/
theorem State.Caught.record {s : State maxThreads Tid Fn Exception} (h : s.Caught)
    {worker : Fin maxThreads} {task : QueuedTask Fn} {exception : Exception}
    (hphase : s.workers worker = .caught task exception) :
    State.Caught { s.setWorker worker (.retiring task) with
      firstException := s.firstException.or (some exception)
      log := s.log ++ [.caught task.id exception] } := by
  have hsum := s.sum_unrecorded_setWorker worker (.retiring task)
  have hnone : (.retiring task : WorkerPhase Fn Exception).unrecorded = 0 := rfl
  rw [hnone, add_zero, hphase, unrecorded_caught] at hsum
  show (s.thrown : Multiset (Int × Exception)) =
    recordedFrom (s.log ++ [.caught task.id exception]) +
      ∑ other, ((s.setWorker worker (.retiring task)).workers other).unrecorded
  rw [h, ← hsum, recordedFrom_append, add_assoc, add_comm (recordedFrom [_])]
  rfl

variable [DecidableEq Tid]

/-- Each step keeps the throws with their records. -/
theorem State.Caught.step {s next : State maxThreads Tid Fn Exception} (h : s.Caught)
    {action : Action maxThreads Tid Fn Exception} (hmove : s.Move action next) : next.Caught := by
  cases hmove with
  | submit | wait | sleep | spuriousDone | destruct | stop | join | destroy =>
    exact h.frame rfl rfl fun _ => rfl
  | notify client target =>
    exact h.frame rfl rfl
      ((workCondition Fn Exception).apply_notifyOne unrecorded_wake s.workers target)
  | pass => exact h.frame rfl ((recordedFrom_append _ _).trans (add_zero _)) fun _ => rfl
  | wake => exact h.frame rfl rfl fun worker => unrecorded_wake (s.workers worker)
  | block worker hphase | exit worker hphase | dequeue worker _ _ hphase | invoke worker _ hphase
  | returns worker _ hphase | spuriousWork worker hphase =>
    refine h.frame rfl rfl (s.unrecorded_setWorker ?_)
    rw [hphase]
    rfl
  | record worker task exception hphase => exact h.record hphase
  | retire worker task hphase =>
    refine h.frame rfl ((recordedFrom_append _ _).trans (add_zero _)) (s.unrecorded_setWorker ?_)
    rw [hphase]
    rfl
  | throws worker task exception hphase => exact h.throws hphase

/-- In every reachable state what tasks have thrown is recorded, or about to be. -/
theorem State.caught_of_reachable {s : State maxThreads Tid Fn Exception}
    (hreach : (poolMachine maxThreads Tid Fn Exception).Reachable s) : s.Caught := by
  refine transition.Machine.Reachable.invariant ?_ ?_ hreach
  · rintro s rfl
    show (0 : Multiset (Int × Exception)) =
      (0 : Multiset _) + ∑ _worker : Fin maxThreads, (0 : Multiset _)
    simp
  · exact fun s action next hcaught hstep => hcaught.step (State.move_of_step hstep).2

omit [DecidableEq Tid] in
/-- An exception that was thrown has been caught, or is in the hands of its worker. -/
theorem State.Caught.cases {s : State maxThreads Tid Fn Exception} (h : s.Caught) {id : Int}
    {exception : Exception} (hthrown : (id, exception) ∈ s.thrown) :
    .caught id exception ∈ s.log ∨ ∃ worker, id ∈ (s.workers worker).held := by
  have hmem := Multiset.mem_coe.mpr hthrown
  rw [h, recordedFrom, Multiset.mem_add, Multiset.mem_coe, Multiset.mem_sum] at hmem
  obtain hlog | ⟨worker, _, hworker⟩ := hmem
  · obtain ⟨entry, hentry, hcaught⟩ := List.mem_filterMap.mp hlog
    cases entry with
    | caught =>
      cases hcaught
      exact .inl hentry
    | finished | waited => cases hcaught
  · refine .inr ⟨worker, ?_⟩
    cases hphase : s.workers worker with
    | caught task other =>
      rw [hphase, unrecorded_caught, Multiset.mem_singleton] at hworker
      rw [held_caught, Multiset.mem_singleton]
      exact congrArg Prod.fst hworker
    | _ => simp [hphase, WorkerPhase.unrecorded] at hworker

end spdlogger.thread_pool
