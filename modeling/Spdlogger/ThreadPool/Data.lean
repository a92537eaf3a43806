import Mathlib.Data.Fintype.Sum
import Mathlib.Tactic.DeriveFintype
import Spdlogger.Library.ConditionVariable

namespace spdlogger.thread_pool

/-- A function in the queue, with its number. -/
structure QueuedTask (Fn : Type) where
  id : Int := 0
  function : Fn
  deriving DecidableEq

/-- Where a worker of the pool stands. `acquiring` is about to test the predicate
of its wait under the mutex, at the first try and after a wake-up; `dequeued`
to `retiring` hold a task. -/
inductive WorkerPhase (Fn Exception : Type) where
  | acquiring
  | blocked
  | dequeued (task : QueuedTask Fn)
  | invoking (task : QueuedTask Fn)
  | caught (task : QueuedTask Fn) (exception : Exception)
  | retiring (task : QueuedTask Fn)
  | exited
  deriving DecidableEq

/-- Who calls `submit` and `wait`: outside threads, the task a worker is running,
and the destructor. -/
inductive Client (Tid : Type) (maxThreads : Nat) where
  | caller (thread : Tid)
  | task (worker : Fin maxThreads)
  | destructor
  deriving DecidableEq, Fintype

/-- Where a client stands. `notifying` has pushed its task; `waiting` is about to
test the predicate of `wait` under the mutex. -/
inductive ClientPhase where
  | idle
  | notifying
  | waiting
  | blocked
  deriving DecidableEq, Repr

/-- Where `~ThreadPool` stands. An exception that leaves it terminates the process. -/
inductive DestructorPhase where
  | live
  | waiting
  | stopping
  | notifying
  | joining (index : Nat)
  | destroyed
  | terminated
  deriving DecidableEq, Repr

/-- What the critical sections around exceptions did, in the order of the mutex. -/
inductive LogEntry (Exception : Type) where
  | caught (id : Int) (exception : Exception)
  | finished (id : Int)
  | waited (rethrown : Option Exception)
  deriving DecidableEq

/-- `workCondition_`. -/
def workCondition (Fn Exception : Type) :
    condition_variable.Waiters (WorkerPhase Fn Exception) where
  blocked phase := phase matches .blocked
  wake
    | .blocked => .acquiring
    | phase => phase
  not_blocked_wake phase := by cases phase <;> rfl
  wake_of_not_blocked phase h := by
    cases phase with
    | blocked => cases h
    | _ => rfl

/-- `doneCondition_`. -/
def doneCondition : condition_variable.Waiters ClientPhase where
  blocked phase := phase matches .blocked
  wake
    | .blocked => .waiting
    | phase => phase
  not_blocked_wake phase := by cases phase <;> rfl
  wake_of_not_blocked phase h := by
    cases phase with
    | blocked => cases h
    | _ => rfl

/-- A bounded pool with its workers and its clients. The last six fields are
history: the tasks submitted and dequeued, the ids whose function was invoked
and whose work is done, the exceptions that functions threw, and the log of what
the pool did about them. -/
structure State (maxThreads : Nat) (Tid Fn Exception : Type) where
  queuedTasks : List (QueuedTask Fn) := []
  inProgressTasks : Finset Int := ∅
  nextTaskId : Int := 0
  stopping : Bool := false
  firstException : Option Exception := none
  workers : Fin maxThreads → WorkerPhase Fn Exception := fun _ => .acquiring
  clients : Client Tid maxThreads → ClientPhase := fun _ => .idle
  destructor : DestructorPhase := .live
  submitted : List (QueuedTask Fn) := []
  dequeued : List (QueuedTask Fn) := []
  invoked : List Int := []
  finished : List Int := []
  thrown : List (Int × Exception) := []
  log : List (LogEntry Exception) := []

end spdlogger.thread_pool
