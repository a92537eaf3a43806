import Spdlogger.ThreadPool.Progress

namespace spdlogger.thread_pool

variable {maxThreads : Nat} {Tid Fn Exception : Type}

/-- Whatever is in progress is with a worker, even if ids come round. -/
def State.Busy (s : State maxThreads Tid Fn Exception) : Prop :=
  ∀ id ∈ s.inProgressTasks, ∃ worker, id ∈ (s.workers worker).held

/-- A step that leaves the tasks with their workers keeps them in progress. -/
theorem State.Busy.frame {s next : State maxThreads Tid Fn Exception} (h : s.Busy)
    (hprogress : next.inProgressTasks = s.inProgressTasks)
    (hheld : ∀ worker, (next.workers worker).held = (s.workers worker).held) : next.Busy := by
  intro id hid
  rw [hprogress] at hid
  obtain ⟨worker, hworker⟩ := h id hid
  exact ⟨worker, (hheld worker).symm ▸ hworker⟩

/-- What is in progress grows by the task that a worker takes. -/
theorem State.Busy.dequeue {s : State maxThreads Tid Fn Exception} (h : s.Busy)
    {worker : Fin maxThreads} {task : QueuedTask Fn} {rest : List (QueuedTask Fn)}
    (hphase : s.workers worker = .acquiring) :
    State.Busy { s.setWorker worker (.dequeued task) with
      queuedTasks := rest
      inProgressTasks := insert task.id s.inProgressTasks
      dequeued := s.dequeued ++ [task] } := by
  intro id hid
  rcases Finset.mem_insert.mp hid with rfl | hearlier
  · exact ⟨worker, by simp [State.setWorker]⟩
  · obtain ⟨other, hother⟩ := h id hearlier
    have hapart : other ≠ worker := by
      rintro rfl
      simp [hphase] at hother
    exact ⟨other, by simpa [State.setWorker, hapart] using hother⟩

/-- A task that is retired is no longer in progress, the others are. -/
theorem State.Busy.retire {s : State maxThreads Tid Fn Exception} (h : s.Busy)
    {worker : Fin maxThreads} {task : QueuedTask Fn} (hphase : s.workers worker = .retiring task)
    {clients : Client Tid maxThreads → ClientPhase} {finished : List Int}
    {log : List (LogEntry Exception)} :
    State.Busy { s.setWorker worker .acquiring with
      inProgressTasks := s.inProgressTasks.erase task.id, clients, finished, log } := by
  intro id hid
  obtain ⟨hfinished, hearlier⟩ := Finset.mem_erase.mp hid
  obtain ⟨other, hother⟩ := h id hearlier
  have hapart : other ≠ worker := by
    rintro rfl
    rw [hphase, held_retiring, Multiset.mem_singleton] at hother
    exact hfinished hother
  exact ⟨other, by simpa [State.setWorker, hapart] using hother⟩

variable [DecidableEq Tid]

/-- Each step keeps the tasks in progress with their workers. -/
theorem State.Busy.step {s next : State maxThreads Tid Fn Exception} (h : s.Busy)
    {action : Action maxThreads Tid Fn Exception} (hmove : s.Move action next) : next.Busy := by
  cases hmove with
  | notify client target =>
    exact h.frame rfl ((workCondition Fn Exception).apply_notifyOne held_wake s.workers target)
  | submit | wait | pass | sleep | spuriousDone | destruct | stop | join | destroy =>
    exact h.frame rfl fun _ => rfl
  | wake => exact h.frame rfl fun worker => held_wake (s.workers worker)
  | block worker hphase =>
    exact h.frame rfl (s.held_setWorker (by rw [hphase, held_acquiring, held_blocked]))
  | exit worker hphase =>
    exact h.frame rfl (s.held_setWorker (by rw [hphase, held_acquiring, held_exited]))
  | dequeue worker task rest hphase => exact h.dequeue hphase
  | invoke worker task hphase =>
    exact h.frame rfl (s.held_setWorker (by rw [hphase, held_invoking, held_dequeued]))
  | record worker task exception hphase =>
    exact h.frame rfl (s.held_setWorker (by rw [hphase, held_retiring, held_caught]))
  | retire worker task hphase => exact h.retire hphase
  | returns worker task hphase =>
    exact h.frame rfl (s.held_setWorker (by rw [hphase, held_retiring, held_invoking]))
  | throws worker task exception hphase =>
    exact h.frame rfl (s.held_setWorker (by rw [hphase, held_caught, held_invoking]))
  | spuriousWork worker hphase =>
    exact h.frame rfl (s.held_setWorker (by rw [hphase, held_acquiring, held_blocked]))

/-- The tasks in progress are with workers in every reachable state. -/
theorem State.busy_of_reachable {s : State maxThreads Tid Fn Exception}
    (hreach : (poolMachine maxThreads Tid Fn Exception).Reachable s) : s.Busy := by
  refine transition.Machine.Reachable.invariant ?_ ?_ hreach
  · rintro s rfl id hid
    simp at hid
  · exact fun s action next hbusy hstep => hbusy.step (State.move_of_step hstep).2

/-- Neither the workers nor their tasks nor the clients inside the pool can go on. -/
structure State.AtRest (s : State maxThreads Tid Fn Exception) : Prop where
  workers : ∀ worker, s.workerStep worker = none
  tasks : ∀ worker task, s.workers worker = .invoking task → s.clients (.task worker) ≠ .idle
  notifications : ∀ client target, s.notify client target = none
  waits : ∀ client, s.testDone client = none

/-- A client at rest is outside the pool or asleep: it can always notify, and
always test the predicate of its wait. -/
theorem State.AtRest.idle_or_blocked {s : State maxThreads Tid Fn Exception} (h : s.AtRest)
    (client : Client Tid maxThreads) : s.clients client = .idle ∨ s.clients client = .blocked := by
  cases hclient : s.clients client with
  | idle => exact .inl rfl
  | blocked => exact .inr rfl
  | waiting =>
    have hwaits := h.waits client
    rw [State.testDone, if_pos hclient] at hwaits
    split at hwaits <;> cases hwaits
  | notifying =>
    have hpicks : ∃ target, (workCondition Fn Exception).Picks s.workers target := by
      by_cases hasleep : ∃ worker, (workCondition Fn Exception).blocked (s.workers worker) = true
      · obtain ⟨worker, hworker⟩ := hasleep
        exact ⟨some worker, hworker⟩
      · exact ⟨none, fun worker => by simpa using fun h => hasleep ⟨worker, h⟩⟩
    obtain ⟨target, htarget⟩ := hpicks
    have hnotify := h.notifications client target
    rw [State.notify, if_pos ⟨hclient, htarget⟩] at hnotify
    cases hnotify

/-- A worker at rest is asleep or gone, unless its task waits in the pool itself. -/
theorem State.AtRest.blocked_or_exited {s : State maxThreads Tid Fn Exception} (h : s.AtRest)
    {worker : Fin maxThreads} (hnowait : s.clients (.task worker) ≠ .blocked) :
    s.workers worker = .blocked ∨ s.workers worker = .exited := by
  have hstep := h.workers worker
  cases hphase : s.workers worker with
  | blocked => exact .inl rfl
  | exited => exact .inr rfl
  | invoking task =>
    have hbusy := h.tasks worker task hphase
    exact absurd ((h.idle_or_blocked (.task worker)).resolve_left hbusy) hnowait
  | acquiring =>
    exfalso
    simp only [State.workerStep, hphase] at hstep
    cases hstopping : s.stopping <;> cases hqueue : s.queuedTasks <;>
      simp [hstopping, hqueue] at hstep
  | dequeued | caught | retiring => simp [State.workerStep, hphase] at hstep

variable [Fintype Tid]

/-- With all workers asleep there is no wake-up outstanding, so the queue is empty
and nothing is in progress. -/
theorem State.AtRest.allDone {s : State maxThreads Tid Fn Exception} (h : s.AtRest)
    (hreach : (poolMachine maxThreads Tid Fn Exception).Reachable s) (hpositive : 0 < maxThreads)
    (hnowait : ∀ worker, s.clients (.task worker) ≠ .blocked) (hrunning : s.stopping = false) :
    s.allDone := by
  have hwakeUps := State.noLostWakeUp_of_reachable hreach
  have hasleep (worker : Fin maxThreads) : s.workers worker = .blocked := by
    refine (h.blocked_or_exited (hnowait worker)).resolve_right fun hexited => ?_
    have hstopping := (State.orderly_of_reachable hreach).exited worker hexited
    rw [hrunning] at hstopping
    cases hstopping
  have hpending : s.pendingNotifications = 0 := by
    unfold State.pendingNotifications threads.count
    refine Finset.sum_eq_zero fun client _ => ?_
    rcases h.idle_or_blocked client with hclient | hclient <;> simp [hclient]
  have hawake : s.awakeWorkers = 0 := by
    unfold State.awakeWorkers threads.count
    exact Finset.sum_eq_zero fun worker _ => by simp [hasleep worker, WorkerPhase.isAcquiring]
  have hqueue : s.queuedTasks = [] := by
    have hwork := hwakeUps.work ⟨0, hpositive⟩ (hasleep _)
    rw [hpending, hawake] at hwork
    exact List.length_eq_zero_iff.mp (Nat.le_zero.mp hwork)
  have hprogress : s.inProgressTasks = ∅ := by
    refine Finset.eq_empty_of_forall_notMem fun id hid => ?_
    obtain ⟨worker, hworker⟩ := State.busy_of_reachable hreach id hid
    simp [hasleep worker] at hworker
  simp [State.allDone, hqueue, hprogress]

/-- So nobody is left waiting in the pool. -/
theorem State.AtRest.idle {s : State maxThreads Tid Fn Exception} (h : s.AtRest)
    (hreach : (poolMachine maxThreads Tid Fn Exception).Reachable s) (hpositive : 0 < maxThreads)
    (hnowait : ∀ worker, s.clients (.task worker) ≠ .blocked) (hrunning : s.stopping = false)
    (client : Client Tid maxThreads) : s.clients client = .idle := by
  refine (h.idle_or_blocked client).resolve_right fun hblocked => ?_
  have hdone := h.allDone hreach hpositive hnowait hrunning
  exact (State.noLostWakeUp_of_reachable hreach).done client hblocked hdone

end spdlogger.thread_pool
