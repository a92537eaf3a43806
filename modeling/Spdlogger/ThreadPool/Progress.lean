import Spdlogger.Library.Progress
import Spdlogger.ThreadPool.Destruction

namespace spdlogger.thread_pool

variable {maxThreads : Nat} {Tid Fn Exception : Type}

/-- The steps that the pool and its tasks take by themselves. Calls of clients and
spurious wake-ups are up to others. -/
def Action.isProgress : Action maxThreads Tid Fn Exception → Bool
  | .submit _ _ | .wait _ | .spuriousDone _ | .spuriousWork _ => false
  | _ => true

/-- A bound on the steps a worker takes before it rests, where retiring a task
wakes up to `wakes` clients. -/
def WorkerPhase.remaining (wakes : Nat) : WorkerPhase Fn Exception → Nat
  | .exited => 0
  | .blocked => 1
  | .acquiring => 2
  | .retiring _ => wakes + 3
  | .caught _ _ => wakes + 4
  | .invoking _ => wakes + 5
  | .dequeued _ => wakes + 6

/-- The same for a client, whose notification wakes one worker. -/
def ClientPhase.remaining : ClientPhase → Nat
  | .idle => 0
  | .blocked => 1
  | .waiting | .notifying => 2

/-- The same for the destructor, which wakes all workers. -/
def DestructorPhase.remaining (maxThreads : Nat) : DestructorPhase → Nat
  | .live => 2 * maxThreads + 7
  | .waiting => 2 * maxThreads + 4
  | .stopping => 2 * maxThreads + 3
  | .notifying => 2 * maxThreads + 2
  | .joining index => maxThreads - index + 1
  | .destroyed | .terminated => 0

variable [Fintype Tid]

/-- A bound on the steps the pool takes before it rests, unless it is called again. -/
def State.remaining (s : State maxThreads Tid Fn Exception) : Nat :=
  let wakes := Fintype.card (Client Tid maxThreads)
  (∑ worker, (s.workers worker).remaining wakes) + (∑ client, (s.clients client).remaining) +
    s.destructor.remaining maxThreads + (wakes + 5) * s.queuedTasks.length

theorem State.remaining_setWorker (s : State maxThreads Tid Fn Exception)
    (worker : Fin maxThreads) (phase : WorkerPhase Fn Exception) :
    (s.setWorker worker phase).remaining +
        (s.workers worker).remaining (Fintype.card (Client Tid maxThreads)) =
      s.remaining + phase.remaining (Fintype.card (Client Tid maxThreads)) := by
  have hsum := threads.sum_update_add
    (WorkerPhase.remaining (Fintype.card (Client Tid maxThreads))) s.workers worker phase
  unfold State.remaining
  simp only [State.workers_setWorker]
  simp only [State.setWorker]
  omega

/-- A wake-up gives a worker one more step. -/
theorem remaining_wake_worker (wakes : Nat) (phase : WorkerPhase Fn Exception) :
    ((workCondition Fn Exception).wake phase).remaining wakes ≤ phase.remaining wakes + 1 := by
  cases phase <;> simp [workCondition, WorkerPhase.remaining]

/-- A wake-up gives a client one more step. -/
theorem remaining_wake_client (phase : ClientPhase) :
    (doneCondition.wake phase).remaining ≤ phase.remaining + 1 := by
  cases phase <;> simp [doneCondition, ClientPhase.remaining]

/-- A worker goes on to a phase with fewer steps left. -/
theorem State.remaining_setWorker_lt (s : State maxThreads Tid Fn Exception)
    {worker : Fin maxThreads} {phase : WorkerPhase Fn Exception}
    (hless : phase.remaining (Fintype.card (Client Tid maxThreads)) <
      (s.workers worker).remaining (Fintype.card (Client Tid maxThreads))) :
    (s.setWorker worker phase).remaining < s.remaining := by
  have hsum := s.remaining_setWorker worker phase
  omega

/-- Taking a task off the queue lowers the bound. -/
theorem State.remaining_dequeue {s : State maxThreads Tid Fn Exception} {worker : Fin maxThreads}
    {task : QueuedTask Fn} {rest : List (QueuedTask Fn)} (hphase : s.workers worker = .acquiring)
    (hqueue : s.queuedTasks = task :: rest) :
    State.remaining { s.setWorker worker (.dequeued task) with
      queuedTasks := rest
      inProgressTasks := insert task.id s.inProgressTasks
      dequeued := s.dequeued ++ [task] } < s.remaining := by
  have hsum := s.remaining_setWorker worker (.dequeued task)
  simp only [hphase, WorkerPhase.remaining] at hsum
  unfold State.remaining at hsum ⊢
  simp only [State.setWorker, hqueue, List.length_cons, Nat.mul_add_one] at hsum ⊢
  omega

/-- Retiring a task lowers the bound, whoever it wakes. -/
theorem State.remaining_retire [DecidableEq Tid] {s : State maxThreads Tid Fn Exception}
    {worker : Fin maxThreads} {task : QueuedTask Fn} (hphase : s.workers worker = .retiring task)
    {clients : Client Tid maxThreads → ClientPhase}
    (hclients : clients = if s.queuedTasks.isEmpty && s.inProgressTasks.erase task.id = ∅ then
      doneCondition.notifyAll s.clients else s.clients) :
    State.remaining { s.setWorker worker .acquiring with
      inProgressTasks := s.inProgressTasks.erase task.id
      clients
      finished := s.finished ++ [task.id]
      log := s.log ++ [.finished task.id] } < s.remaining := by
  have hsum := s.remaining_setWorker worker .acquiring
  have hwoken := doneCondition.sum_notifyAll_le remaining_wake_client s.clients
  simp only [hphase, WorkerPhase.remaining] at hsum
  unfold State.remaining at hsum ⊢
  by_cases hdone : (s.queuedTasks.isEmpty && s.inProgressTasks.erase task.id = ∅) = true
  · rw [if_pos hdone] at hclients
    subst hclients
    simp only [State.setWorker] at hsum ⊢
    omega
  · rw [if_neg hdone] at hclients
    subst hclients
    simp only [State.setWorker] at hsum ⊢
    omega

/-- The destructor moves on, and leaves workers and clients alone. -/
theorem State.remaining_destructor (s : State maxThreads Tid Fn Exception)
    {destructor : DestructorPhase} {stopping : Bool}
    (hless : destructor.remaining maxThreads < s.destructor.remaining maxThreads) :
    State.remaining { s with stopping, destructor } < s.remaining := by
  unfold State.remaining
  dsimp only
  omega

/-- Waking all workers lowers the bound. -/
theorem State.remaining_wake {s : State maxThreads Tid Fn Exception}
    (hphase : s.destructor = .notifying) : State.remaining { s with
      workers := (workCondition Fn Exception).notifyAll s.workers
      destructor := .joining 0 } < s.remaining := by
  have hwoken := (workCondition Fn Exception).sum_notifyAll_le
    (remaining_wake_worker (Fintype.card (Client Tid maxThreads))) s.workers
  rw [Fintype.card_fin] at hwoken
  unfold State.remaining
  simp only [hphase, DestructorPhase.remaining]
  omega

variable [DecidableEq Tid]

theorem State.remaining_setClient (s : State maxThreads Tid Fn Exception)
    (client : Client Tid maxThreads) (phase : ClientPhase) :
    (s.setClient client phase).remaining + (s.clients client).remaining =
      s.remaining + phase.remaining := by
  have hsum := threads.sum_update_add ClientPhase.remaining s.clients client phase
  unfold State.remaining
  simp only [State.clients_setClient]
  simp only [State.setClient]
  omega

/-- The notification of a submit lowers the bound. -/
theorem State.remaining_notify {s : State maxThreads Tid Fn Exception}
    {client : Client Tid maxThreads} (hclient : s.clients client = .notifying)
    (target : Option (Fin maxThreads)) : State.remaining { s.setClient client .idle with
      workers := (workCondition Fn Exception).notifyOne s.workers target } < s.remaining := by
  have hsum := s.remaining_setClient client .idle
  have hwoken := (workCondition Fn Exception).sum_notifyOne_le
    (remaining_wake_worker (Fintype.card (Client Tid maxThreads))) s.workers target
  rw [hclient] at hsum
  simp only [ClientPhase.remaining] at hsum
  unfold State.remaining at hsum ⊢
  simp only [State.setClient] at hsum ⊢
  omega

/-- Leaving a `wait` costs a client its turn, and moves the destructor on. -/
theorem State.remaining_pass {s : State maxThreads Tid Fn Exception} (h : s.Orderly)
    {client : Client Tid maxThreads} (hclient : s.clients client = .waiting)
    {destructor : DestructorPhase} (hdestructor : destructor = if client = .destructor then
      if s.firstException.isSome then .terminated else .stopping else s.destructor) :
    State.remaining { s.setClient client .idle with
      firstException := none, destructor, log := s.log ++ [.waited s.firstException] } <
      s.remaining := by
  subst hdestructor
  have hsum := s.remaining_setClient client .idle
  have hwaits := h.waits
  simp only [hclient, ClientPhase.remaining] at hsum
  unfold State.remaining at hsum ⊢
  simp only [State.setClient] at hsum ⊢
  by_cases hself : client = .destructor
  · subst hself
    have hphase : s.destructor = .waiting := hwaits.mpr (by simp [hclient])
    rw [hphase] at hsum ⊢
    simp only [DestructorPhase.remaining] at hsum
    cases s.firstException <;> simp only [if_true, Option.isSome_none, Option.isSome_some,
      Bool.false_eq_true, if_false, DestructorPhase.remaining] <;> omega
  · rw [if_neg hself]
    omega

/-- Each step of progress lowers the bound. -/
theorem State.remaining_lt {s next : State maxThreads Tid Fn Exception} (h : s.Orderly)
    {action : Action maxThreads Tid Fn Exception} (hprogress : action.isProgress = true)
    (hmove : s.Move action next) : next.remaining < s.remaining := by
  cases hmove with
  | notify client target hclient => exact State.remaining_notify hclient target
  | pass client hclient _ _ hdestructor => exact State.remaining_pass h hclient hdestructor
  | sleep client hclient =>
    have hsum := s.remaining_setClient client .blocked
    simp only [hclient, ClientPhase.remaining] at hsum
    omega
  | dequeue worker task rest hphase hqueue => exact State.remaining_dequeue hphase hqueue
  | invoke worker task hphase =>
    have hless : (s.setWorker worker (.invoking task)).remaining < s.remaining :=
      s.remaining_setWorker_lt (by simp [hphase, WorkerPhase.remaining])
    exact hless
  | record worker task exception hphase =>
    have hless : (s.setWorker worker (.retiring task)).remaining < s.remaining :=
      s.remaining_setWorker_lt (by simp [hphase, WorkerPhase.remaining])
    exact hless
  | retire worker task hphase clients hclients => exact State.remaining_retire hphase hclients
  | block _ hphase | exit _ hphase | returns _ _ hphase | throws _ _ _ hphase =>
    apply State.remaining_setWorker_lt
    simp [hphase, WorkerPhase.remaining]
  | destruct hphase =>
    have hsum := s.remaining_setClient .destructor .waiting
    unfold State.remaining at hsum ⊢
    simp only [State.setClient, hphase, DestructorPhase.remaining, ClientPhase.remaining] at hsum ⊢
    omega
  | stop hphase => exact s.remaining_destructor (by simp [hphase, DestructorPhase.remaining])
  | wake hphase => exact State.remaining_wake hphase
  | join worker hphase =>
    have hlt := worker.isLt
    apply s.remaining_destructor
    simp only [hphase, DestructorPhase.remaining]
    omega
  | destroy index hphase => exact s.remaining_destructor (by simp [hphase, DestructorPhase.remaining])
  | submit | wait | spuriousDone | spuriousWork => cases hprogress

/-- Each step of the pool's own uses up what is left to do, and a call or a spurious wake-up
adds a bounded amount. -/
theorem usesUp : (poolMachine maxThreads Tid Fn Exception).UsesUp Action.isProgress
    State.remaining (Fintype.card (Client Tid maxThreads) + 7) := by
  constructor
  · intro s action next hreach hprogress hstep
    have hmove := (State.move_of_step hstep).2
    exact State.remaining_lt (State.orderly_of_reachable hreach) hprogress hmove
  · intro s action next _ hother hstep
    have hmove := (State.move_of_step hstep).2
    cases hmove with
    | submit client =>
      have hsum := s.remaining_setClient client .notifying
      unfold State.remaining at hsum ⊢
      simp only [State.setClient, ClientPhase.remaining, List.length_append, List.length_singleton,
        Nat.mul_add_one] at hsum ⊢
      omega
    | wait client | spuriousDone client =>
      have hsum := s.remaining_setClient client .waiting
      simp only [ClientPhase.remaining] at hsum
      omega
    | spuriousWork worker =>
      have hsum := s.remaining_setWorker worker .acquiring
      simp only [WorkerPhase.remaining] at hsum
      omega
    | _ => cases hother

end spdlogger.thread_pool
