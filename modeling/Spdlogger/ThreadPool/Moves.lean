import Spdlogger.ThreadPool.Step

namespace spdlogger.thread_pool

variable {maxThreads : Nat} {Tid Fn Exception : Type}

/-- The critical section around the wait of a worker: sleep, leave, or take the
front of the queue. -/
theorem State.acquiring_cases {s next : State maxThreads Tid Fn Exception}
    {worker : Fin maxThreads} (hphase : s.workers worker = .acquiring)
    (hstep : s.workerStep worker = some next) :
    s.stopping = false ∧ s.queuedTasks = [] ∧ next = s.setWorker worker .blocked ∨
      s.stopping = true ∧ s.queuedTasks = [] ∧ next = s.setWorker worker .exited ∨
      ∃ task rest, s.queuedTasks = task :: rest ∧
        next = { s.setWorker worker (.dequeued task) with
          queuedTasks := rest
          inProgressTasks := insert task.id s.inProgressTasks
          dequeued := s.dequeued ++ [task] } := by
  simp only [State.workerStep, hphase] at hstep
  cases hqueue : s.queuedTasks with
  | nil =>
    cases hstopping : s.stopping with
    | false =>
      simp only [hqueue, hstopping] at hstep
      exact .inl ⟨rfl, rfl, (Option.some.inj hstep).symm⟩
    | true =>
      simp only [hqueue, hstopping] at hstep
      exact .inr (.inl ⟨rfl, rfl, (Option.some.inj hstep).symm⟩)
  | cons task rest =>
    simp only [hqueue, List.isEmpty_cons, Bool.and_false] at hstep
    exact .inr (.inr ⟨task, rest, rfl, (Option.some.inj hstep).symm⟩)

variable [DecidableEq Tid]

/-- Everything that a step of the pool can do. `pass` and `sleep` are the two
outcomes of the predicate of `wait`. -/
inductive State.Move (s : State maxThreads Tid Fn Exception) :
    Action maxThreads Tid Fn Exception → State maxThreads Tid Fn Exception → Prop where
  | submit (client : Client Tid maxThreads) (function : Fn) (hcall : s.mayCall client) :
      Move s (.submit client function) { s.setClient client .notifying with
        nextTaskId := Int.bmod (s.nextTaskId + 1) (2 ^ 32)
        queuedTasks := s.queuedTasks ++ [⟨s.nextTaskId, function⟩]
        submitted := s.submitted ++ [⟨s.nextTaskId, function⟩] }
  | notify (client : Client Tid maxThreads) (target : Option (Fin maxThreads))
      (hclient : s.clients client = .notifying)
      (hpicks : (workCondition Fn Exception).Picks s.workers target) :
      Move s (.notify client target) { s.setClient client .idle with
        workers := (workCondition Fn Exception).notifyOne s.workers target }
  | wait (client : Client Tid maxThreads) (hcall : s.mayCall client) :
      Move s (.wait client) (s.setClient client .waiting)
  | pass (client : Client Tid maxThreads) (hclient : s.clients client = .waiting)
      (hdone : s.allDone) (destructor : DestructorPhase)
      (hdestructor : destructor = if client = .destructor then
        if s.firstException.isSome then .terminated else .stopping else s.destructor) :
      Move s (.testDone client) { s.setClient client .idle with
        firstException := none
        destructor
        log := s.log ++ [.waited s.firstException] }
  | sleep (client : Client Tid maxThreads) (hclient : s.clients client = .waiting)
      (hdone : ¬ s.allDone) : Move s (.testDone client) (s.setClient client .blocked)
  | spuriousDone (client : Client Tid maxThreads) (hclient : s.clients client = .blocked) :
      Move s (.spuriousDone client) (s.setClient client .waiting)
  | block (worker : Fin maxThreads) (hphase : s.workers worker = .acquiring)
      (hstopping : s.stopping = false) (hqueue : s.queuedTasks = []) :
      Move s (.workerStep worker) (s.setWorker worker .blocked)
  | exit (worker : Fin maxThreads) (hphase : s.workers worker = .acquiring)
      (hstopping : s.stopping = true) (hqueue : s.queuedTasks = []) :
      Move s (.workerStep worker) (s.setWorker worker .exited)
  | dequeue (worker : Fin maxThreads) (task : QueuedTask Fn) (rest : List (QueuedTask Fn))
      (hphase : s.workers worker = .acquiring) (hqueue : s.queuedTasks = task :: rest) :
      Move s (.workerStep worker) { s.setWorker worker (.dequeued task) with
        queuedTasks := rest
        inProgressTasks := insert task.id s.inProgressTasks
        dequeued := s.dequeued ++ [task] }
  | invoke (worker : Fin maxThreads) (task : QueuedTask Fn)
      (hphase : s.workers worker = .dequeued task) :
      Move s (.workerStep worker) { s.setWorker worker (.invoking task) with
        invoked := s.invoked ++ [task.id] }
  | record (worker : Fin maxThreads) (task : QueuedTask Fn) (exception : Exception)
      (hphase : s.workers worker = .caught task exception) :
      Move s (.workerStep worker) { s.setWorker worker (.retiring task) with
        firstException := s.firstException.or (some exception)
        log := s.log ++ [.caught task.id exception] }
  | retire (worker : Fin maxThreads) (task : QueuedTask Fn)
      (hphase : s.workers worker = .retiring task) (clients : Client Tid maxThreads → ClientPhase)
      (hclients : clients =
        if s.queuedTasks.isEmpty && s.inProgressTasks.erase task.id = ∅ then
          doneCondition.notifyAll s.clients
        else s.clients) :
      Move s (.workerStep worker) { s.setWorker worker .acquiring with
        inProgressTasks := s.inProgressTasks.erase task.id
        clients
        finished := s.finished ++ [task.id]
        log := s.log ++ [.finished task.id] }
  | returns (worker : Fin maxThreads) (task : QueuedTask Fn)
      (hphase : s.workers worker = .invoking task) (hidle : s.clients (.task worker) = .idle) :
      Move s (.returns worker) (s.setWorker worker (.retiring task))
  | throws (worker : Fin maxThreads) (task : QueuedTask Fn) (exception : Exception)
      (hphase : s.workers worker = .invoking task) (hidle : s.clients (.task worker) = .idle) :
      Move s (.throws worker exception) { s.setWorker worker (.caught task exception) with
        thrown := s.thrown ++ [(task.id, exception)] }
  | spuriousWork (worker : Fin maxThreads) (hphase : s.workers worker = .blocked) :
      Move s (.spuriousWork worker) (s.setWorker worker .acquiring)
  | destruct (hphase : s.destructor = .live) :
      Move s .destructorStep { s.setClient .destructor .waiting with destructor := .waiting }
  | stop (hphase : s.destructor = .stopping) :
      Move s .destructorStep { s with stopping := true, destructor := .notifying }
  | wake (hphase : s.destructor = .notifying) :
      Move s .destructorStep { s with
        workers := (workCondition Fn Exception).notifyAll s.workers
        destructor := .joining 0 }
  | join (worker : Fin maxThreads) (hphase : s.destructor = .joining worker)
      (hexited : s.workers worker = .exited) :
      Move s .destructorStep { s with destructor := .joining (worker + 1) }
  | destroy (index : Nat) (hphase : s.destructor = .joining index) (hall : maxThreads ≤ index) :
      Move s .destructorStep { s with destructor := .destroyed }

theorem State.Move.of_workerStep {s next : State maxThreads Tid Fn Exception}
    {worker : Fin maxThreads} (hstep : s.workerStep worker = some next) :
    s.Move (.workerStep worker) next := by
  cases hphase : s.workers worker with
  | acquiring =>
    obtain ⟨hstopping, hqueue, rfl⟩ | ⟨hstopping, hqueue, rfl⟩ | ⟨task, rest, hqueue, rfl⟩ :=
      State.acquiring_cases hphase hstep
    · exact .block worker hphase hstopping hqueue
    · exact .exit worker hphase hstopping hqueue
    · exact .dequeue worker task rest hphase hqueue
  | dequeued task =>
    simp only [State.workerStep, hphase, Option.some.injEq] at hstep
    exact hstep ▸ .invoke worker task hphase
  | caught task exception =>
    simp only [State.workerStep, hphase, Option.some.injEq] at hstep
    exact hstep ▸ .record worker task exception hphase
  | retiring task =>
    simp only [State.workerStep, hphase, Option.some.injEq] at hstep
    exact hstep ▸ .retire worker task hphase _ rfl
  | blocked | invoking | exited => simp [State.workerStep, hphase] at hstep

theorem State.Move.of_testDone {s next : State maxThreads Tid Fn Exception}
    {client : Client Tid maxThreads} (hstep : s.testDone client = some next) :
    s.Move (.testDone client) next := by
  simp only [State.testDone, Option.ite_none_right_eq_some] at hstep
  obtain ⟨hclient, hstep⟩ := hstep
  by_cases hdone : s.allDone = true
  · rw [if_pos hdone] at hstep
    cases hstep
    exact .pass client hclient hdone _ rfl
  · rw [if_neg hdone] at hstep
    cases hstep
    exact .sleep client hclient hdone

theorem State.Move.of_destructorStep {s next : State maxThreads Tid Fn Exception}
    (hstep : s.destructorStep = some next) : s.Move .destructorStep next := by
  unfold State.destructorStep at hstep
  cases hphase : s.destructor with
  | live =>
    simp only [hphase, Option.some.injEq] at hstep
    exact hstep ▸ .destruct hphase
  | stopping =>
    simp only [hphase, Option.some.injEq] at hstep
    exact hstep ▸ .stop hphase
  | notifying =>
    simp only [hphase, Option.some.injEq] at hstep
    exact hstep ▸ .wake hphase
  | joining index =>
    simp only [hphase] at hstep
    by_cases hlt : index < maxThreads
    · rw [dif_pos hlt] at hstep
      split at hstep
      · cases hstep
        exact .join ⟨index, hlt⟩ hphase ‹_›
      · cases hstep
    · rw [dif_neg hlt] at hstep
      cases hstep
      exact .destroy index hphase (Nat.not_lt.mp hlt)
  | waiting | destroyed | terminated => simp [hphase] at hstep

/-- Every step is one of these moves, of a process that is still there. -/
theorem State.move_of_step {s next : State maxThreads Tid Fn Exception}
    {action : Action maxThreads Tid Fn Exception} (hstep : s.step action = some next) :
    s.destructor ≠ .terminated ∧ s.Move action next := by
  simp only [State.step, Option.ite_none_left_eq_some] at hstep
  obtain ⟨hrunning, hstep⟩ := hstep
  refine ⟨hrunning, ?_⟩
  cases action with
  | submit client function =>
    simp only [State.submit, Option.ite_none_right_eq_some, Option.some.injEq] at hstep
    obtain ⟨hcall, rfl⟩ := hstep
    exact .submit client function hcall
  | notify client target =>
    simp only [State.notify, Option.ite_none_right_eq_some, Option.some.injEq] at hstep
    obtain ⟨⟨hclient, hpicks⟩, rfl⟩ := hstep
    exact .notify client target hclient hpicks
  | wait client =>
    simp only [Option.ite_none_right_eq_some, Option.some.injEq] at hstep
    obtain ⟨hcall, rfl⟩ := hstep
    exact .wait client hcall
  | testDone client => exact .of_testDone hstep
  | spuriousDone client =>
    simp only [Option.ite_none_right_eq_some, Option.some.injEq] at hstep
    obtain ⟨hclient, rfl⟩ := hstep
    exact .spuriousDone client hclient
  | workerStep worker => exact .of_workerStep hstep
  | returns worker | throws worker exception =>
    simp only [State.endTask] at hstep
    cases hphase : s.workers worker with
    | invoking task =>
      simp only [hphase, Option.ite_none_right_eq_some, Option.some.injEq] at hstep
      obtain ⟨hidle, rfl⟩ := hstep
      constructor
      · exact hphase
      · exact hidle
    | _ => simp [hphase] at hstep
  | spuriousWork worker =>
    cases hphase : s.workers worker with
    | blocked =>
      simp only [hphase, Option.some.injEq] at hstep
      exact hstep ▸ .spuriousWork worker hphase
    | _ => simp [hphase] at hstep
  | destructorStep => exact .of_destructorStep hstep

end spdlogger.thread_pool
