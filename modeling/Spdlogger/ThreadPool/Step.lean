import Spdlogger.Library.Machine
import Spdlogger.ThreadPool.Data

namespace spdlogger.thread_pool

/-- `target` is the thread a `notify_one` reaches. `returns` and `throws` end the
function of the task a worker is running. -/
inductive Action (maxThreads : Nat) (Tid Fn Exception : Type) where
  | submit (client : Client Tid maxThreads) (function : Fn)
  | notify (client : Client Tid maxThreads) (target : Option (Fin maxThreads))
  | wait (client : Client Tid maxThreads)
  | testDone (client : Client Tid maxThreads)
  | spuriousDone (client : Client Tid maxThreads)
  | workerStep (worker : Fin maxThreads)
  | returns (worker : Fin maxThreads)
  | throws (worker : Fin maxThreads) (exception : Exception)
  | spuriousWork (worker : Fin maxThreads)
  | destructorStep

/-- The `int` that the `k`-th submission is numbered with. -/
def taskId (k : Nat) : Int := Int.bmod k (2 ^ 32)

/-- The worker is inside the function of its task. -/
def WorkerPhase.isInvoking {Fn Exception : Type} : WorkerPhase Fn Exception → Bool
  | .invoking _ => true
  | _ => false

variable {maxThreads : Nat} {Tid Fn Exception : Type} [DecidableEq Tid]

/-- The state with one worker moved. -/
def State.setWorker (s : State maxThreads Tid Fn Exception) (worker : Fin maxThreads)
    (phase : WorkerPhase Fn Exception) : State maxThreads Tid Fn Exception :=
  { s with workers := Function.update s.workers worker phase }

/-- The state with one client moved. -/
def State.setClient (s : State maxThreads Tid Fn Exception) (client : Client Tid maxThreads)
    (phase : ClientPhase) : State maxThreads Tid Fn Exception :=
  { s with clients := Function.update s.clients client phase }

omit [DecidableEq Tid] in
@[simp] theorem State.workers_setWorker (s : State maxThreads Tid Fn Exception)
    (worker : Fin maxThreads) (phase : WorkerPhase Fn Exception) :
    (s.setWorker worker phase).workers = Function.update s.workers worker phase := rfl

@[simp] theorem State.clients_setClient (s : State maxThreads Tid Fn Exception)
    (client : Client Tid maxThreads) (phase : ClientPhase) :
    (s.setClient client phase).clients = Function.update s.clients client phase := rfl

/-- Whether a client is free to call `submit` or `wait`: a task has to be running,
and the destructor waits on its own. -/
def State.mayCall (s : State maxThreads Tid Fn Exception) (client : Client Tid maxThreads) :
    Bool :=
  s.clients client = .idle &&
    match client with
    | .caller _ => true
    | .task worker => (s.workers worker).isInvoking
    | .destructor => false

/-- The predicate of `wait`. -/
def State.allDone (s : State maxThreads Tid Fn Exception) : Bool :=
  s.queuedTasks.isEmpty && s.inProgressTasks = ∅

/-- The critical section of `submit`. -/
def State.submit (s : State maxThreads Tid Fn Exception) (client : Client Tid maxThreads)
    (function : Fn) : Option (State maxThreads Tid Fn Exception) :=
  if s.mayCall client then
    let task : QueuedTask Fn := ⟨s.nextTaskId, function⟩
    some { s.setClient client .notifying with
      nextTaskId := Int.bmod (s.nextTaskId + 1) (2 ^ 32)
      queuedTasks := s.queuedTasks ++ [task]
      submitted := s.submitted ++ [task] }
  else none

/-- `workCondition_.notify_one`, after the lock is gone. -/
def State.notify (s : State maxThreads Tid Fn Exception) (client : Client Tid maxThreads)
    (target : Option (Fin maxThreads)) : Option (State maxThreads Tid Fn Exception) :=
  if s.clients client = .notifying ∧ (workCondition Fn Exception).Picks s.workers target then
    some { s.setClient client .idle with
      workers := (workCondition Fn Exception).notifyOne s.workers target }
  else none

/-- The critical section of `wait` from the test of the predicate on. Leaving the
wait takes the recorded exception along; in the destructor that terminates. -/
def State.testDone (s : State maxThreads Tid Fn Exception) (client : Client Tid maxThreads) :
    Option (State maxThreads Tid Fn Exception) :=
  if s.clients client = .waiting then
    if s.allDone then
      let afterWait : DestructorPhase :=
        if client = .destructor then
          if s.firstException.isSome then .terminated else .stopping
        else s.destructor
      some { s.setClient client .idle with
        firstException := none
        destructor := afterWait
        log := s.log ++ [.waited s.firstException] }
    else some (s.setClient client .blocked)
  else none

/-- A step of a worker outside the function of its task. -/
def State.workerStep (s : State maxThreads Tid Fn Exception) (worker : Fin maxThreads) :
    Option (State maxThreads Tid Fn Exception) :=
  match s.workers worker with
  | .acquiring =>
    if !s.stopping && s.queuedTasks.isEmpty then some (s.setWorker worker .blocked)
    else if s.stopping && s.queuedTasks.isEmpty then some (s.setWorker worker .exited)
    else
      match s.queuedTasks with
      | [] => none
      | task :: rest => some { s.setWorker worker (.dequeued task) with
          queuedTasks := rest
          inProgressTasks := insert task.id s.inProgressTasks
          dequeued := s.dequeued ++ [task] }
  | .dequeued task => some { s.setWorker worker (.invoking task) with
      invoked := s.invoked ++ [task.id] }
  | .caught task exception => some { s.setWorker worker (.retiring task) with
      firstException := s.firstException.or (some exception)
      log := s.log ++ [.caught task.id exception] }
  | .retiring task =>
    let inProgressTasks := s.inProgressTasks.erase task.id
    let clients :=
      if s.queuedTasks.isEmpty && inProgressTasks = ∅ then doneCondition.notifyAll s.clients
      else s.clients
    some { s.setWorker worker .acquiring with
      inProgressTasks
      clients
      finished := s.finished ++ [task.id]
      log := s.log ++ [.finished task.id] }
  | .blocked | .invoking _ | .exited => none

/-- The function of a task ends, once it is out of the pool's own calls: it
returns, or an exception comes out of it and the worker is in its handler. -/
def State.endTask (s : State maxThreads Tid Fn Exception) (worker : Fin maxThreads)
    (exception : Option Exception) : Option (State maxThreads Tid Fn Exception) :=
  match s.workers worker with
  | .invoking task =>
    if s.clients (.task worker) = .idle then
      match exception with
      | none => some (s.setWorker worker (.retiring task))
      | some exception => some { s.setWorker worker (.caught task exception) with
          thrown := s.thrown ++ [(task.id, exception)] }
    else none
  | _ => none

/-- A step of `~ThreadPool`. Its `wait` is the one of the client `destructor`. -/
def State.destructorStep (s : State maxThreads Tid Fn Exception) :
    Option (State maxThreads Tid Fn Exception) :=
  match s.destructor with
  | .live => some { s.setClient .destructor .waiting with destructor := .waiting }
  | .stopping => some { s with stopping := true, destructor := .notifying }
  | .notifying => some { s with
      workers := (workCondition Fn Exception).notifyAll s.workers
      destructor := .joining 0 }
  | .joining index =>
    if h : index < maxThreads then
      match s.workers ⟨index, h⟩ with
      | .exited => some { s with destructor := .joining (index + 1) }
      | _ => none
    else some { s with destructor := .destroyed }
  | .waiting | .destroyed | .terminated => none

/-- One step of the pool, unless the process is gone. -/
def State.step (s : State maxThreads Tid Fn Exception)
    (action : Action maxThreads Tid Fn Exception) :
    Option (State maxThreads Tid Fn Exception) :=
  if s.destructor = .terminated then none
  else
    match action with
    | .submit client function => s.submit client function
    | .notify client target => s.notify client target
    | .wait client => if s.mayCall client then some (s.setClient client .waiting) else none
    | .testDone client => s.testDone client
    | .spuriousDone client =>
      if s.clients client = .blocked then some (s.setClient client .waiting) else none
    | .workerStep worker => s.workerStep worker
    | .returns worker => s.endTask worker none
    | .throws worker exception => s.endTask worker (some exception)
    | .spuriousWork worker =>
      match s.workers worker with
      | .blocked => some (s.setWorker worker .acquiring)
      | _ => none
    | .destructorStep => s.destructorStep

/-- A pool with `maxThreads` workers, from the end of its construction on. -/
def poolMachine (maxThreads : Nat) (Tid Fn Exception : Type) [DecidableEq Tid] :
    transition.Machine (State maxThreads Tid Fn Exception)
      (Action maxThreads Tid Fn Exception) where
  init s := s = {}
  step := State.step

end spdlogger.thread_pool
