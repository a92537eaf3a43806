import Spdlogger.ThreadPool.WakeUps

namespace spdlogger.thread_pool

variable {maxThreads : Nat} {Tid Fn Exception : Type} [Fintype Tid] [DecidableEq Tid]

omit [DecidableEq Tid] in
/-- A worker goes to sleep: the queue is empty, and the destructor has not been here. -/
theorem State.NoLostWakeUp.block {s : State maxThreads Tid Fn Exception} (h : s.NoLostWakeUp)
    {worker : Fin maxThreads} (hrunning : s.stopping = false) (hqueue : s.queuedTasks = []) :
    (s.setWorker worker .blocked).NoLostWakeUp := by
  refine ⟨?_, h.done, h.stop, ?_, h.destructor⟩
  · intro other _
    simp [State.setWorker, hqueue]
  · intro hnotified
    have hstopping := h.stop (DestructorPhase.hasStopped_of_hasNotified hnotified)
    rw [hrunning] at hstopping
    cases hstopping

omit [DecidableEq Tid] in
/-- A worker leaves an empty queue, so nobody misses it. -/
theorem State.NoLostWakeUp.exit {s : State maxThreads Tid Fn Exception} (h : s.NoLostWakeUp)
    {worker : Fin maxThreads} (hqueue : s.queuedTasks = []) :
    (s.setWorker worker .exited).NoLostWakeUp := by
  refine ⟨?_, h.done, h.stop, ?_, h.destructor⟩
  · intro other _
    simp [State.setWorker, hqueue]
  · have hexited : (.exited : WorkerPhase Fn Exception) ≠ .blocked := by simp
    intro hnotified other hblocked
    exact h.woken hnotified other (State.blocked_of_setWorker hexited hblocked)

omit [DecidableEq Tid] in
/-- A worker on its way to the queue takes a task out of it. -/
theorem State.NoLostWakeUp.dequeue {s : State maxThreads Tid Fn Exception} (h : s.NoLostWakeUp)
    {worker : Fin maxThreads} {task : QueuedTask Fn} {rest : List (QueuedTask Fn)}
    (hphase : s.workers worker = .acquiring) (hqueue : s.queuedTasks = task :: rest) :
    State.NoLostWakeUp { s.setWorker worker (.dequeued task) with
      queuedTasks := rest
      inProgressTasks := insert task.id s.inProgressTasks
      dequeued := s.dequeued ++ [task] } := by
  have hdequeued : (.dequeued task : WorkerPhase Fn Exception) ≠ .blocked := by simp
  have hawake := threads.count_update WorkerPhase.isAcquiring s.workers worker (.dequeued task)
  refine ⟨?_, ?_, h.stop, ?_, h.destructor⟩
  · intro other hblocked
    have hwork := h.work other (State.blocked_of_setWorker hdequeued hblocked)
    rw [hqueue, List.length_cons] at hwork
    simp only [hphase, WorkerPhase.isAcquiring, if_true, Bool.false_eq_true, if_false] at hawake
    unfold State.pendingNotifications State.awakeWorkers at hwork
    show rest.length ≤
      threads.count (fun phase => decide (phase = ClientPhase.notifying)) s.clients +
      threads.count WorkerPhase.isAcquiring
        (Function.update s.workers worker (.dequeued task))
    omega
  · intro client _
    simp [State.allDone]
  · intro hnotified other hblocked
    exact h.woken hnotified other (State.blocked_of_setWorker hdequeued hblocked)

omit [DecidableEq Tid] in
/-- The last task to finish wakes everybody in `wait`. -/
theorem State.NoLostWakeUp.retire {s : State maxThreads Tid Fn Exception} (h : s.NoLostWakeUp)
    {worker : Fin maxThreads} {task : QueuedTask Fn} (hphase : s.workers worker = .retiring task)
    {clients : Client Tid maxThreads → ClientPhase}
    (hclients : clients = if s.queuedTasks.isEmpty && s.inProgressTasks.erase task.id = ∅ then
      doneCondition.notifyAll s.clients else s.clients) :
    State.NoLostWakeUp { s.setWorker worker .acquiring with
      inProgressTasks := s.inProgressTasks.erase task.id
      clients
      finished := s.finished ++ [task.id]
      log := s.log ++ [.finished task.id] } := by
  have hmoved : (s.setWorker worker .acquiring).NoLostWakeUp := by
    apply h.setWorker
    · rw [hphase]
      rfl
    · simp
  by_cases hdone : (s.queuedTasks.isEmpty && s.inProgressTasks.erase task.id = ∅) = true
  · rw [if_pos hdone] at hclients
    subst hclients
    have hpending : threads.count (fun phase => decide (phase = ClientPhase.notifying))
        (doneCondition.notifyAll s.clients) =
          threads.count (fun phase => decide (phase = ClientPhase.notifying)) s.clients := by
      refine threads.count_congr fun client => ?_
      unfold condition_variable.Waiters.notifyAll
      cases s.clients client <;> rfl
    refine ⟨?_, ?_, hmoved.stop, hmoved.woken, ?_⟩
    · intro other hblocked
      have hwork := hmoved.work other hblocked
      unfold State.pendingNotifications at hwork ⊢
      rw [hpending]
      exact hwork
    · intro client hblocked
      have hasleep : doneCondition.notifyAll s.clients client = .blocked := hblocked
      have hawake := doneCondition.blocked_notifyAll s.clients client
      rw [hasleep] at hawake
      cases hawake
    · show doneCondition.wake (s.clients .destructor) ≠ .notifying
      have hdestructor := h.destructor
      cases hclient : s.clients .destructor with
      | notifying => exact absurd hclient hdestructor
      | _ => simp [doneCondition]
  · rw [if_neg hdone] at hclients
    subst hclients
    exact ⟨hmoved.work, fun client _ => hdone, hmoved.stop, hmoved.woken, hmoved.destructor⟩

omit [DecidableEq Tid] in
/-- `~ThreadPool` wakes the workers after it has set the flag. -/
theorem State.NoLostWakeUp.wake {s : State maxThreads Tid Fn Exception} (h : s.NoLostWakeUp)
    (hphase : s.destructor = .notifying) :
    State.NoLostWakeUp { s with
      workers := (workCondition Fn Exception).notifyAll s.workers, destructor := .joining 0 } := by
  have hstopping : s.stopping := h.stop (by rw [hphase]; rfl)
  have hnone (worker : Fin maxThreads) :
      (workCondition Fn Exception).notifyAll s.workers worker ≠ .blocked := by
    intro hblocked
    have hawake := (workCondition Fn Exception).blocked_notifyAll s.workers worker
    rw [hblocked] at hawake
    cases hawake
  exact ⟨fun worker hblocked => absurd hblocked (hnone worker), h.done, fun _ => hstopping,
    fun _ => hnone, h.destructor⟩

/-- A `wait` that is over. -/
theorem State.NoLostWakeUp.pass {s : State maxThreads Tid Fn Exception} (h : s.NoLostWakeUp)
    {client : Client Tid maxThreads} (hclient : s.clients client = .waiting)
    {destructor : DestructorPhase} (hdestructor : destructor = if client = .destructor then
      if s.firstException.isSome then .terminated else .stopping else s.destructor) :
    State.NoLostWakeUp { s.setClient client .idle with
      firstException := none, destructor, log := s.log ++ [.waited s.firstException] } := by
  subst hdestructor
  have hmoved : (s.setClient client .idle).NoLostWakeUp :=
    h.setClient (by simp [hclient]) (by simp) (by simp)
  apply hmoved.frame
  · by_cases hself : client = .destructor
    · cases hexception : s.firstException <;> simp [hself, DestructorPhase.hasStopped]
    · simp only [hself, if_false]
      exact h.stop
  · by_cases hself : client = .destructor
    · cases hexception : s.firstException <;> simp [hself, DestructorPhase.hasNotified]
    · simp [hself, State.setClient]

/-- No step loses a wake-up. -/
theorem State.NoLostWakeUp.step {s next : State maxThreads Tid Fn Exception}
    (h : s.NoLostWakeUp) {action : Action maxThreads Tid Fn Exception}
    (hmove : s.Move action next) : next.NoLostWakeUp := by
  cases hmove with
  | submit client function hcall => exact h.submit function hcall
  | notify client target hclient hpicks => exact h.notify hclient hpicks
  | wait client hcall =>
    simp only [State.mayCall, Bool.and_eq_true, decide_eq_true_eq] at hcall
    apply h.setClient
    · simp [hcall.1]
    · simp
    · simp
  | pass client hclient _ _ hdestructor => exact h.pass hclient hdestructor
  | sleep client hclient hdone =>
    apply h.setClient
    · simp [hclient]
    · simp
    · exact fun _ => hdone
  | spuriousDone client hclient =>
    apply h.setClient
    · simp [hclient]
    · simp
    · simp
  | block worker _ hrunning hqueue => exact h.block hrunning hqueue
  | exit worker _ _ hqueue => exact h.exit hqueue
  | dequeue worker task rest hphase hqueue => exact h.dequeue hphase hqueue
  | invoke worker task hphase =>
    have hmoved : (s.setWorker worker (.invoking task)).NoLostWakeUp := by
      apply h.setWorker
      · rw [hphase]
        rfl
      · simp
    exact hmoved.frame h.stop id
  | record worker task exception hphase =>
    have hmoved : (s.setWorker worker (.retiring task)).NoLostWakeUp := by
      apply h.setWorker
      · rw [hphase]
        rfl
      · simp
    exact hmoved.frame h.stop id
  | retire worker task hphase clients hclients => exact h.retire hphase hclients
  | throws worker task exception hphase =>
    have hmoved : (s.setWorker worker (.caught task exception)).NoLostWakeUp := by
      apply h.setWorker
      · rw [hphase]
        rfl
      · simp
    exact hmoved.frame h.stop id
  | returns worker task hphase | spuriousWork worker hphase =>
    apply h.setWorker
    · rw [hphase]
      rfl
    · simp
  | destruct =>
    have hmoved : (s.setClient .destructor .waiting).NoLostWakeUp :=
      h.setClient h.destructor (by simp) (by simp)
    apply hmoved.frame
    · simp [DestructorPhase.hasStopped]
    · simp [DestructorPhase.hasNotified]
  | stop =>
    apply h.frame
    · simp
    · simp [DestructorPhase.hasNotified]
  | wake hphase => exact h.wake hphase
  | join _ hphase | destroy _ hphase =>
    have hnotified : s.destructor.hasNotified := by
      rw [hphase]
      rfl
    have hstopping := h.stop (DestructorPhase.hasStopped_of_hasNotified hnotified)
    exact h.frame (fun _ => hstopping) fun _ => hnotified

/-- In no reachable state has a wake-up been lost. -/
theorem State.noLostWakeUp_of_reachable {s : State maxThreads Tid Fn Exception}
    (hreach : (poolMachine maxThreads Tid Fn Exception).Reachable s) : s.NoLostWakeUp := by
  refine transition.Machine.Reachable.invariant ?_ ?_ hreach
  · rintro s rfl
    refine ⟨?_, ?_, ?_, ?_, ?_⟩
    · simp
    · simp
    · simp [DestructorPhase.hasStopped]
    · simp [DestructorPhase.hasNotified]
    · simp
  · exact fun s action next hwakeUps hstep => hwakeUps.step (State.move_of_step hstep).2

/-- In every reachable state: if a worker is blocked, each queued task has a notification still
to come or a worker awake without a task; no client is blocked in `wait` with nothing queued and
nothing in progress; and no worker is blocked after the destructor has woken them all. -/
theorem State.no_lost_wake_up {s : State maxThreads Tid Fn Exception}
    (hreach : (poolMachine maxThreads Tid Fn Exception).Reachable s) :
    ((∀ worker, s.workers worker ≠ .blocked) ∨
      s.queuedTasks.length ≤ s.pendingNotifications + s.awakeWorkers) ∧
    (∀ client, s.clients client = .blocked →
      ¬ (s.queuedTasks = [] ∧ s.inProgressTasks = ∅)) ∧
    (s.destructor.hasNotified → ∀ worker, s.workers worker ≠ .blocked) := by
  have h := State.noLostWakeUp_of_reachable hreach
  refine ⟨?_, ?_, h.woken⟩
  · by_cases hblocked : ∃ worker, s.workers worker = .blocked
    · obtain ⟨worker, hworker⟩ := hblocked
      exact .inr (h.work worker hworker)
    · exact .inl fun worker hworker => hblocked ⟨worker, hworker⟩
  · rintro client hclient ⟨hqueue, hprogress⟩
    exact h.done client hclient (by simp [State.allDone, hqueue, hprogress])

/-- A worker goes to sleep, and a task is pushed whose notification is on its way. -/
theorem no_lost_wake_up_after_push :
    ∃ s : State 2 Unit Unit Unit, (poolMachine 2 Unit Unit Unit).Reachable s ∧
      s.workers 0 = .blocked ∧ s.queuedTasks.length = 1 ∧
        s.queuedTasks.length ≤ s.pendingNotifications + s.awakeWorkers := by
  obtain ⟨s, hreach, hcheck⟩ := transition.Machine.exists_reachable_of_run
    (M := poolMachine 2 Unit Unit Unit) (s := {}) rfl
    [.workerStep 0, .workerStep 1, .submit (.caller ()) ()]
    (fun s => s.workers 0 = .blocked ∧ s.queuedTasks.length = 1) (by decide)
  obtain ⟨hblocked, hqueue⟩ := of_decide_eq_true hcheck
  have hwork := (State.no_lost_wake_up hreach).1
  exact ⟨s, hreach, hblocked, hqueue, hwork.resolve_left fun hnone => hnone 0 hblocked⟩

end spdlogger.thread_pool
