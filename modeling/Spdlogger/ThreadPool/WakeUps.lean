import Spdlogger.ThreadPool.Tasks

namespace spdlogger.thread_pool

variable {maxThreads : Nat} {Tid Fn Exception : Type} [Fintype Tid]

/-- The worker is awake without a task. -/
def WorkerPhase.isAcquiring : WorkerPhase Fn Exception → Bool
  | .acquiring => true
  | _ => false

/-- A wake-up sends a blocked worker to the queue. -/
theorem isAcquiring_wake (phase : WorkerPhase Fn Exception)
    (hblocked : (workCondition Fn Exception).blocked phase = true) :
    phase.isAcquiring = false ∧ ((workCondition Fn Exception).wake phase).isAcquiring = true := by
  cases phase with
  | blocked => exact ⟨rfl, rfl⟩
  | _ => cases hblocked

/-- The submits that have pushed their task and not yet notified. -/
def State.pendingNotifications (s : State maxThreads Tid Fn Exception) : Nat :=
  threads.count (fun phase => phase = .notifying) s.clients

/-- The workers awake without a task, on their way to the queue. -/
def State.awakeWorkers (s : State maxThreads Tid Fn Exception) : Nat :=
  threads.count WorkerPhase.isAcquiring s.workers

/-- The destructor has set `stopping_`. -/
def DestructorPhase.hasStopped : DestructorPhase → Bool
  | .notifying | .joining _ | .destroyed => true
  | .live | .waiting | .stopping | .terminated => false

/-- The destructor has called `notify_all`. -/
def DestructorPhase.hasNotified : DestructorPhase → Bool
  | .joining _ | .destroyed => true
  | .live | .waiting | .stopping | .notifying | .terminated => false

/-- The destructor notifies after it has set the flag. -/
theorem DestructorPhase.hasStopped_of_hasNotified {phase : DestructorPhase}
    (h : phase.hasNotified) : phase.hasStopped := by
  cases phase with
  | joining | destroyed => rfl
  | _ => cases h

/-- Nobody sleeps through the work they should do. While a worker is blocked, a
queued task has a notification coming or a worker on its way; nobody is blocked
in `wait` with nothing left to do; and none of the workers is blocked once the
destructor has woken them. -/
structure State.NoLostWakeUp (s : State maxThreads Tid Fn Exception) : Prop where
  work : ∀ worker, s.workers worker = .blocked →
    s.queuedTasks.length ≤ s.pendingNotifications + s.awakeWorkers
  done : ∀ client, s.clients client = .blocked → ¬ s.allDone
  stop : s.destructor.hasStopped → s.stopping
  woken : s.destructor.hasNotified → ∀ worker, s.workers worker ≠ .blocked
  destructor : s.clients .destructor ≠ .notifying

/-- Steps that touch neither the workers nor the clients nor their predicates. -/
theorem State.NoLostWakeUp.frame {s : State maxThreads Tid Fn Exception} (h : s.NoLostWakeUp)
    {destructor : DestructorPhase} {stopping : Bool} {firstException : Option Exception}
    {invoked : List Int} {thrown : List (Int × Exception)} {log : List (LogEntry Exception)}
    (hstop : destructor.hasStopped → stopping)
    (hnotified : destructor.hasNotified → s.destructor.hasNotified) :
    State.NoLostWakeUp { s with destructor, stopping, firstException, invoked, thrown, log } :=
  ⟨h.work, h.done, hstop, fun hnext => h.woken (hnotified hnext), h.destructor⟩

omit [Fintype Tid] in
/-- Only a worker that is moved to the wait blocks. -/
theorem State.blocked_of_setWorker {s : State maxThreads Tid Fn Exception}
    {worker other : Fin maxThreads} {phase : WorkerPhase Fn Exception} (hphase : phase ≠ .blocked)
    (hblocked : (s.setWorker worker phase).workers other = .blocked) :
    s.workers other = .blocked :=
  threads.phase_of_update hblocked hphase

/-- A worker that is not on its way to the queue, and does not go to sleep. -/
theorem State.NoLostWakeUp.setWorker {s : State maxThreads Tid Fn Exception} (h : s.NoLostWakeUp)
    {worker : Fin maxThreads} {phase : WorkerPhase Fn Exception}
    (hbusy : (s.workers worker).isAcquiring = false) (hphase : phase ≠ .blocked) :
    (s.setWorker worker phase).NoLostWakeUp := by
  have hawake : s.awakeWorkers ≤ (s.setWorker worker phase).awakeWorkers := by
    have hcount := threads.count_update WorkerPhase.isAcquiring s.workers worker phase
    rw [hbusy] at hcount
    unfold State.awakeWorkers
    rw [State.workers_setWorker]
    simp only [Bool.false_eq_true, if_false] at hcount
    omega
  refine ⟨?_, h.done, h.stop, ?_, h.destructor⟩
  · intro other hblocked
    have hwork := h.work other (State.blocked_of_setWorker hphase hblocked)
    exact hwork.trans (Nat.add_le_add_left hawake _)
  · intro hnotified other hblocked
    exact h.woken hnotified other (State.blocked_of_setWorker hphase hblocked)

/-- A client that moves between phases outside `submit`. -/
theorem State.NoLostWakeUp.setClient [DecidableEq Tid] {s : State maxThreads Tid Fn Exception}
    (h : s.NoLostWakeUp) {client : Client Tid maxThreads} {phase : ClientPhase}
    (hbefore : s.clients client ≠ .notifying) (hafter : phase ≠ .notifying)
    (hblocked : phase = .blocked → ¬ s.allDone) : (s.setClient client phase).NoLostWakeUp := by
  have hpending : (s.setClient client phase).pendingNotifications = s.pendingNotifications := by
    have hcount := threads.count_update (fun phase => decide (phase = ClientPhase.notifying))
      s.clients client phase
    simp only [hbefore, hafter, decide_false, Bool.false_eq_true, if_false, Nat.add_zero] at hcount
    exact hcount
  refine ⟨?_, ?_, h.stop, h.woken, ?_⟩
  · rw [hpending]
    exact h.work
  · intro other hother
    by_cases heq : other = client
    · rw [heq, State.clients_setClient, Function.update_self] at hother
      exact hblocked hother
    · exact h.done other (by simpa [heq] using hother)
  · by_cases heq : Client.destructor = client
    · rw [← heq, State.clients_setClient, Function.update_self]
      exact hafter
    · simpa [heq] using h.destructor

variable [DecidableEq Tid]

/-- A push is matched by the notification it owes. -/
theorem State.NoLostWakeUp.submit {s : State maxThreads Tid Fn Exception}
    (h : s.NoLostWakeUp) {client : Client Tid maxThreads} (function : Fn)
    (hcall : s.mayCall client) :
    State.NoLostWakeUp { s.setClient client .notifying with
      nextTaskId := Int.bmod (s.nextTaskId + 1) (2 ^ 32)
      queuedTasks := s.queuedTasks ++ [⟨s.nextTaskId, function⟩]
      submitted := s.submitted ++ [⟨s.nextTaskId, function⟩] } := by
  simp only [State.mayCall, Bool.and_eq_true, decide_eq_true_eq] at hcall
  have hpending := threads.count_update (fun phase => decide (phase = ClientPhase.notifying))
    s.clients client .notifying
  simp only [hcall.1, decide_true, reduceCtorEq, decide_false, Bool.false_eq_true, if_false,
    if_true, Nat.add_zero] at hpending
  refine ⟨?_, ?_, h.stop, h.woken, ?_⟩
  · intro worker hblocked
    have hwork := h.work worker hblocked
    unfold State.pendingNotifications State.awakeWorkers at hwork ⊢
    simp only [List.length_append, List.length_singleton, State.clients_setClient, hpending]
    exact Nat.add_right_comm _ 1 _ ▸ Nat.succ_le_succ hwork
  · intro other _
    simp [State.allDone]
  · by_cases heq : Client.destructor = client
    · rw [← heq] at hcall
      simp at hcall
    · simpa [heq] using h.destructor

/-- A notification that is paid wakes a worker, if one sleeps. -/
theorem State.NoLostWakeUp.notify {s : State maxThreads Tid Fn Exception}
    (h : s.NoLostWakeUp) {client : Client Tid maxThreads} {target : Option (Fin maxThreads)}
    (hclient : s.clients client = .notifying)
    (hpicks : (workCondition Fn Exception).Picks s.workers target) :
    State.NoLostWakeUp { s.setClient client .idle with
      workers := (workCondition Fn Exception).notifyOne s.workers target } := by
  have hearlier {worker : Fin maxThreads}
      (hblocked : (workCondition Fn Exception).notifyOne s.workers target worker = .blocked) :
      s.workers worker = .blocked := by
    have hsame : (workCondition Fn Exception).notifyOne s.workers target worker =
        s.workers worker :=
      (workCondition Fn Exception).blocked_of_notifyOne (by rw [hblocked]; rfl)
    rw [← hsame, hblocked]
  refine ⟨?_, ?_, h.stop, ?_, ?_⟩
  · intro worker hblocked
    have hwork := h.work worker (hearlier hblocked)
    have hpending := threads.count_update (fun phase => decide (phase = ClientPhase.notifying))
      s.clients client .idle
    have hawake := (workCondition Fn Exception).count_notifyOne hpicks isAcquiring_wake
      (i := worker) (by rw [hearlier hblocked]; rfl)
    simp only [hclient, decide_true, reduceCtorEq, decide_false, Bool.false_eq_true, if_false,
      if_true, Nat.add_zero] at hpending
    unfold State.pendingNotifications State.awakeWorkers at hwork
    show s.queuedTasks.length ≤
      threads.count (fun phase => decide (phase = ClientPhase.notifying))
        (Function.update s.clients client .idle) +
      threads.count WorkerPhase.isAcquiring
        ((workCondition Fn Exception).notifyOne s.workers target)
    omega
  · intro other hother
    by_cases heq : other = client
    · simp [heq] at hother
    · exact h.done other (by simpa [heq] using hother)
  · intro hnotified worker hblocked
    exact h.woken hnotified worker (hearlier hblocked)
  · by_cases heq : Client.destructor = client
    · simp [heq]
    · simpa [heq] using h.destructor

end spdlogger.thread_pool
