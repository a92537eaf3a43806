import Spdlogger.ThreadPool.Step

namespace spdlogger.thread_pool

variable {maxThreads : Nat} {Tid Fn Exception : Type}

/-- The id of the task a worker is busy with. -/
def WorkerPhase.held : WorkerPhase Fn Exception → Multiset Int
  | .dequeued task | .invoking task | .caught task _ | .retiring task => {task.id}
  | .acquiring | .blocked | .exited => 0

/-- The id of a task a worker has dequeued and not yet invoked. -/
def WorkerPhase.pending : WorkerPhase Fn Exception → Multiset Int
  | .dequeued task => {task.id}
  | _ => 0

section phases

variable (task : QueuedTask Fn) (exception : Exception)

@[simp] theorem held_acquiring : (.acquiring : WorkerPhase Fn Exception).held = 0 := rfl

@[simp] theorem held_blocked : (.blocked : WorkerPhase Fn Exception).held = 0 := rfl

@[simp] theorem held_exited : (.exited : WorkerPhase Fn Exception).held = 0 := rfl

@[simp] theorem held_dequeued : (.dequeued task : WorkerPhase Fn Exception).held = {task.id} := rfl

@[simp] theorem held_invoking : (.invoking task : WorkerPhase Fn Exception).held = {task.id} := rfl

@[simp] theorem held_caught : (.caught task exception : WorkerPhase Fn _).held = {task.id} := rfl

@[simp] theorem held_retiring : (.retiring task : WorkerPhase Fn Exception).held = {task.id} := rfl

@[simp] theorem pending_acquiring : (.acquiring : WorkerPhase Fn Exception).pending = 0 := rfl

@[simp] theorem pending_blocked : (.blocked : WorkerPhase Fn Exception).pending = 0 := rfl

@[simp] theorem pending_exited : (.exited : WorkerPhase Fn Exception).pending = 0 := rfl

@[simp] theorem pending_dequeued :
    (.dequeued task : WorkerPhase Fn Exception).pending = {task.id} := rfl

@[simp] theorem pending_invoking : (.invoking task : WorkerPhase Fn Exception).pending = 0 := rfl

@[simp] theorem pending_caught : (.caught task exception : WorkerPhase Fn _).pending = 0 := rfl

@[simp] theorem pending_retiring : (.retiring task : WorkerPhase Fn Exception).pending = 0 := rfl

end phases

theorem held_wake (phase : WorkerPhase Fn Exception) :
    ((workCondition Fn Exception).wake phase).held = phase.held := by
  cases phase <;> rfl

theorem pending_wake (phase : WorkerPhase Fn Exception) :
    ((workCondition Fn Exception).wake phase).pending = phase.pending := by
  cases phase <;> rfl

/-- A task yet to be invoked is with its worker. -/
theorem pending_le_held (phase : WorkerPhase Fn Exception) : phase.pending ≤ phase.held := by
  cases phase with
  | dequeued => exact le_rfl
  | _ => exact Multiset.zero_le _

/-- The numbers of these tasks. -/
def ids (tasks : List (QueuedTask Fn)) : Multiset Int := (tasks.map QueuedTask.id : List Int)

@[simp] theorem ids_nil : ids ([] : List (QueuedTask Fn)) = 0 := rfl

@[simp] theorem ids_cons (task : QueuedTask Fn) (tasks : List (QueuedTask Fn)) :
    ids (task :: tasks) = {task.id} + ids tasks := rfl

@[simp] theorem ids_append (first second : List (QueuedTask Fn)) :
    ids (first ++ second) = ids first + ids second := by
  simp [ids]

/-- Tasks are numbered in the order of their submission, and dequeued in it. -/
structure State.Numbered (s : State maxThreads Tid Fn Exception) : Prop where
  submitted_eq : s.dequeued ++ s.queuedTasks = s.submitted
  ids_eq : s.submitted.map QueuedTask.id = (List.range s.submitted.length).map taskId
  next_eq : s.nextTaskId = taskId s.submitted.length

/-- The dequeued tasks are those the workers hold and those that are finished;
`inProgressTasks` are those the workers hold; and the functions invoked are those
of the dequeued tasks, the ones just taken apart. -/
structure State.Settled (s : State maxThreads Tid Fn Exception) : Prop where
  inProgress_eq : s.inProgressTasks.val = ∑ worker, (s.workers worker).held
  dequeued_eq : ids s.dequeued = (∑ worker, (s.workers worker).held) + s.finished
  invoked_eq : ids s.dequeued = s.invoked + ∑ worker, (s.workers worker).pending

/-- Two tasks never share an id. This is what the 32-bit counter grants. -/
def State.DistinctIds (s : State maxThreads Tid Fn Exception) : Prop := (ids s.submitted).Nodup

/-- A worker that moves on with its task leaves everyone with theirs. -/
theorem State.held_setWorker {s : State maxThreads Tid Fn Exception} {worker : Fin maxThreads}
    {phase : WorkerPhase Fn Exception} (h : phase.held = (s.workers worker).held)
    (other : Fin maxThreads) :
    ((s.setWorker worker phase).workers other).held = (s.workers other).held := by
  by_cases hother : other = worker
  · simp [State.setWorker, hother, h]
  · simp [State.setWorker, hother]

theorem State.pending_setWorker {s : State maxThreads Tid Fn Exception} {worker : Fin maxThreads}
    {phase : WorkerPhase Fn Exception} (h : phase.pending = (s.workers worker).pending)
    (other : Fin maxThreads) :
    ((s.setWorker worker phase).workers other).pending = (s.workers other).pending := by
  by_cases hother : other = worker
  · simp [State.setWorker, hother, h]
  · simp [State.setWorker, hother]

theorem State.sum_held_setWorker (s : State maxThreads Tid Fn Exception) (worker : Fin maxThreads)
    (phase : WorkerPhase Fn Exception) :
    (∑ other, ((s.setWorker worker phase).workers other).held) + (s.workers worker).held =
      (∑ other, (s.workers other).held) + phase.held :=
  threads.sum_update_add WorkerPhase.held s.workers worker phase

theorem State.sum_pending_setWorker (s : State maxThreads Tid Fn Exception)
    (worker : Fin maxThreads) (phase : WorkerPhase Fn Exception) :
    (∑ other, ((s.setWorker worker phase).workers other).pending) + (s.workers worker).pending =
      (∑ other, (s.workers other).pending) + phase.pending :=
  threads.sum_update_add WorkerPhase.pending s.workers worker phase

theorem taskId_zero : taskId 0 = 0 := Int.zero_bmod

/-- The next id is the wrapping increment of the counter. -/
theorem taskId_succ (k : Nat) : Int.bmod (taskId k + 1) (2 ^ 32) = taskId (k + 1) := by
  unfold taskId
  rw [Int.bmod_add_bmod]
  rfl

/-- Below 2^31 submits the ids are distinct. -/
theorem State.Numbered.distinctIds {s : State maxThreads Tid Fn Exception} (h : s.Numbered)
    (hcount : s.submitted.length < 2 ^ 31) : s.DistinctIds := by
  unfold State.DistinctIds ids
  rw [h.ids_eq, Multiset.coe_nodup]
  refine List.Nodup.map_on ?_ List.nodup_range
  intro first hfirst second hsecond heq
  rw [List.mem_range] at hfirst hsecond
  unfold taskId at heq
  rw [Int.bmod_eq_of_le (by omega) (by omega), Int.bmod_eq_of_le (by omega) (by omega)] at heq
  omega

end spdlogger.thread_pool
