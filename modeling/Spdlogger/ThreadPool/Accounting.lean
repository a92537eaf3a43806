import Spdlogger.ThreadPool.Tasks

namespace spdlogger.thread_pool

variable {maxThreads : Nat} {Tid Fn Exception : Type} [DecidableEq Tid]

/-- A submit keeps the accounts. -/
theorem State.Accounts.submit {s : State maxThreads Tid Fn Exception} (h : s.Accounts)
    (client : Client Tid maxThreads) (function : Fn) :
    State.Accounts { s.setClient client .notifying with
      nextTaskId := Int.bmod (s.nextTaskId + 1) (2 ^ 32)
      queuedTasks := s.queuedTasks ++ [⟨s.nextTaskId, function⟩]
      submitted := s.submitted ++ [⟨s.nextTaskId, function⟩] } := by
  refine ⟨⟨?_, ?_, ?_⟩, fun hdistinct => ?_⟩
  · rw [← h.numbered.submitted_eq, ← List.append_assoc]
    rfl
  · rw [List.map_append, h.numbered.ids_eq, h.numbered.next_eq]
    simp [List.range_succ]
  · rw [h.numbered.next_eq, taskId_succ, List.length_append, List.length_singleton]
  · have hearlier : s.DistinctIds := by
      unfold State.DistinctIds at hdistinct ⊢
      rw [ids_append, Multiset.nodup_add] at hdistinct
      exact hdistinct.1
    have hsettled := h.settled hearlier
    exact ⟨hsettled.inProgress_eq, hsettled.dequeued_eq, hsettled.invoked_eq⟩

/-- Each step keeps the accounts. -/
theorem State.Accounts.step {s next : State maxThreads Tid Fn Exception} (h : s.Accounts)
    {action : Action maxThreads Tid Fn Exception} (hmove : s.Move action next) :
    next.Accounts := by
  cases hmove with
  | submit client function => exact h.submit client function
  | notify client target =>
    exact h.frame ((workCondition Fn Exception).apply_notifyOne held_wake s.workers target)
      ((workCondition Fn Exception).apply_notifyOne pending_wake s.workers target)
  | wait | pass | sleep | spuriousDone | destruct | stop | join | destroy => exact h.elsewhere
  | wake =>
    exact h.frame (fun worker => held_wake (s.workers worker))
      fun worker => pending_wake (s.workers worker)
  | block worker hphase =>
    apply h.setWorker
    · rw [hphase, held_acquiring, held_blocked]
    · rw [hphase, pending_acquiring, pending_blocked]
  | exit worker hphase =>
    apply h.setWorker
    · rw [hphase, held_acquiring, held_exited]
    · rw [hphase, pending_acquiring, pending_exited]
  | dequeue worker task rest hphase hqueue => exact h.dequeue hphase hqueue
  | invoke worker task hphase => exact h.invoke hphase
  | record worker task exception hphase =>
    have hretiring : (s.setWorker worker (.retiring task)).Accounts := by
      apply h.setWorker
      · rw [hphase, held_retiring, held_caught]
      · rw [hphase, pending_retiring, pending_caught]
    exact hretiring.elsewhere
  | retire worker task hphase => exact h.retire hphase
  | returns worker task hphase =>
    apply h.setWorker
    · rw [hphase, held_retiring, held_invoking]
    · rw [hphase, pending_retiring, pending_invoking]
  | throws worker task exception hphase =>
    have hcaught : (s.setWorker worker (.caught task exception)).Accounts := by
      apply h.setWorker
      · rw [hphase, held_caught, held_invoking]
      · rw [hphase, pending_caught, pending_invoking]
    exact hcaught.elsewhere
  | spuriousWork worker hphase =>
    apply h.setWorker
    · rw [hphase, held_blocked, held_acquiring]
    · rw [hphase, pending_blocked, pending_acquiring]

/-- The accounts hold in every reachable state. -/
theorem State.accounts_of_reachable {s : State maxThreads Tid Fn Exception}
    (hreach : (poolMachine maxThreads Tid Fn Exception).Reachable s) : s.Accounts := by
  refine transition.Machine.Reachable.invariant ?_ ?_ hreach
  · rintro s rfl
    refine ⟨⟨by simp, by simp, taskId_zero.symm⟩, fun _ => ⟨?_, ?_, ?_⟩⟩
    · simp
    · simp
    · simp
  · exact fun s action next haccounts hstep => haccounts.step (State.move_of_step hstep).2

end spdlogger.thread_pool
