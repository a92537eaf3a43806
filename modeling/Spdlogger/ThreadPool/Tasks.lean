import Mathlib.Tactic.Abel
import Spdlogger.ThreadPool.Accounts
import Spdlogger.ThreadPool.Moves

namespace spdlogger.thread_pool

variable {maxThreads : Nat} {Tid Fn Exception : Type}

/-- The books of the pool: the numbering always, the whereabouts of the tasks as
long as no id has come round. -/
structure State.Accounts (s : State maxThreads Tid Fn Exception) : Prop where
  numbered : s.Numbered
  settled : s.DistinctIds → s.Settled

/-- Steps of the clients and the destructor, and those of a worker that keeps
what it holds. -/
theorem State.Accounts.frame {s : State maxThreads Tid Fn Exception} (h : s.Accounts)
    {workers : Fin maxThreads → WorkerPhase Fn Exception}
    (hheld : ∀ worker, (workers worker).held = (s.workers worker).held)
    (hpending : ∀ worker, (workers worker).pending = (s.workers worker).pending)
    {clients : Client Tid maxThreads → ClientPhase} {destructor : DestructorPhase}
    {stopping : Bool} {firstException : Option Exception} {thrown : List (Int × Exception)}
    {log : List (LogEntry Exception)} :
    State.Accounts { s with workers, clients, destructor, stopping, firstException, thrown, log } := by
  refine ⟨⟨h.numbered.submitted_eq, h.numbered.ids_eq, h.numbered.next_eq⟩, fun hdistinct => ?_⟩
  have hsettled := h.settled hdistinct
  refine ⟨?_, ?_, hsettled.invoked_eq.trans ?_⟩
  · simp only [hheld]
    exact hsettled.inProgress_eq
  · simp only [hheld]
    exact hsettled.dequeued_eq
  · simp only [hpending]

/-- Steps that leave the workers alone. -/
theorem State.Accounts.elsewhere {s : State maxThreads Tid Fn Exception} (h : s.Accounts)
    {clients : Client Tid maxThreads → ClientPhase} {destructor : DestructorPhase}
    {stopping : Bool} {firstException : Option Exception} {thrown : List (Int × Exception)}
    {log : List (LogEntry Exception)} :
    State.Accounts { s with clients, destructor, stopping, firstException, thrown, log } :=
  h.frame (fun _ => rfl) fun _ => rfl

/-- A worker whose phase changes but not the task it holds. -/
theorem State.Accounts.setWorker {s : State maxThreads Tid Fn Exception} (h : s.Accounts)
    {worker : Fin maxThreads} {phase : WorkerPhase Fn Exception}
    (hheld : phase.held = (s.workers worker).held)
    (hpending : phase.pending = (s.workers worker).pending) :
    (s.setWorker worker phase).Accounts :=
  h.frame (s.held_setWorker hheld) (s.pending_setWorker hpending)

/-- A worker takes the front of the queue. -/
theorem State.Accounts.dequeue {s : State maxThreads Tid Fn Exception} (h : s.Accounts)
    {worker : Fin maxThreads} {task : QueuedTask Fn} {rest : List (QueuedTask Fn)}
    (hphase : s.workers worker = .acquiring) (hqueue : s.queuedTasks = task :: rest) :
    State.Accounts { s.setWorker worker (.dequeued task) with
      queuedTasks := rest
      inProgressTasks := insert task.id s.inProgressTasks
      dequeued := s.dequeued ++ [task] } := by
  have hsubmitted := h.numbered.submitted_eq
  rw [hqueue] at hsubmitted
  refine ⟨⟨?_, h.numbered.ids_eq, h.numbered.next_eq⟩, fun hdistinct => ?_⟩
  · show (s.dequeued ++ [task]) ++ rest = s.submitted
    rw [List.append_assoc, List.singleton_append, hsubmitted]
  · have hsettled := h.settled hdistinct
    have hheld := s.sum_held_setWorker worker (.dequeued task)
    have hpending := s.sum_pending_setWorker worker (.dequeued task)
    simp only [hphase, held_acquiring, held_dequeued, pending_acquiring, pending_dequeued,
      add_zero] at hheld hpending
    have hfresh : task.id ∉ s.inProgressTasks := by
      intro hmem
      have hnodup : (ids s.submitted).Nodup := hdistinct
      rw [← hsubmitted, ids_append, ids_cons, hsettled.dequeued_eq, ← hsettled.inProgress_eq,
        Multiset.nodup_add] at hnodup
      exact Multiset.disjoint_left.mp hnodup.2.2
        (Multiset.mem_add.mpr (.inl hmem)) (Multiset.mem_add.mpr (.inl (Multiset.mem_singleton_self _)))
    refine ⟨?_, ?_, ?_⟩
    · simp only [hheld]
      rw [Finset.insert_val_of_notMem hfresh, hsettled.inProgress_eq, ← Multiset.singleton_add,
        add_comm]
    · show ids (s.dequeued ++ [task]) =
        (∑ other, ((s.setWorker worker (.dequeued task)).workers other).held) + s.finished
      rw [hheld, ids_append, hsettled.dequeued_eq, ids_cons, ids_nil]
      abel
    · show ids (s.dequeued ++ [task]) =
        s.invoked + ∑ other, ((s.setWorker worker (.dequeued task)).workers other).pending
      rw [hpending, ids_append, hsettled.invoked_eq, ids_cons, ids_nil]
      abel

/-- A worker calls the function of the task it has taken. -/
theorem State.Accounts.invoke {s : State maxThreads Tid Fn Exception} (h : s.Accounts)
    {worker : Fin maxThreads} {task : QueuedTask Fn} (hphase : s.workers worker = .dequeued task) :
    State.Accounts { s.setWorker worker (.invoking task) with
      invoked := s.invoked ++ [task.id] } := by
  refine ⟨⟨h.numbered.submitted_eq, h.numbered.ids_eq, h.numbered.next_eq⟩, fun hdistinct => ?_⟩
  have hsettled := h.settled hdistinct
  have hsame : (.invoking task : WorkerPhase Fn Exception).held = (s.workers worker).held := by
    rw [hphase, held_invoking, held_dequeued]
  have hheld := s.held_setWorker hsame
  have hpending := s.sum_pending_setWorker worker (.invoking task)
  simp only [hphase, pending_dequeued, pending_invoking, add_zero] at hpending
  refine ⟨?_, ?_, ?_⟩
  · simp only [hheld]
    exact hsettled.inProgress_eq
  · simp only [hheld]
    exact hsettled.dequeued_eq
  · show ids s.dequeued = (s.invoked ++ [task.id] : List Int) +
      ∑ other, ((s.setWorker worker (.invoking task)).workers other).pending
    rw [hsettled.invoked_eq, ← hpending, ← Multiset.coe_add, Multiset.coe_singleton]
    abel

/-- A worker is through with its task. -/
theorem State.Accounts.retire {s : State maxThreads Tid Fn Exception} (h : s.Accounts)
    {worker : Fin maxThreads} {task : QueuedTask Fn} (hphase : s.workers worker = .retiring task)
    {clients : Client Tid maxThreads → ClientPhase} {log : List (LogEntry Exception)} :
    State.Accounts { s.setWorker worker .acquiring with
      inProgressTasks := s.inProgressTasks.erase task.id
      clients
      finished := s.finished ++ [task.id]
      log } := by
  refine ⟨⟨h.numbered.submitted_eq, h.numbered.ids_eq, h.numbered.next_eq⟩, fun hdistinct => ?_⟩
  have hsettled := h.settled hdistinct
  have hheld := s.sum_held_setWorker worker .acquiring
  simp only [hphase, held_retiring, held_acquiring, add_zero] at hheld
  have hsame : (.acquiring : WorkerPhase Fn Exception).pending = (s.workers worker).pending := by
    rw [hphase, pending_acquiring, pending_retiring]
  have hpending := s.pending_setWorker hsame
  refine ⟨?_, ?_, ?_⟩
  · rw [Finset.erase_val, hsettled.inProgress_eq, ← hheld, add_comm, Multiset.singleton_add,
      Multiset.erase_cons_head]
  · show ids s.dequeued =
      (∑ other, ((s.setWorker worker .acquiring).workers other).held) +
        (s.finished ++ [task.id] : List Int)
    rw [hsettled.dequeued_eq, ← hheld, ← Multiset.coe_add, Multiset.coe_singleton]
    abel
  · simp only [hpending]
    exact hsettled.invoked_eq

end spdlogger.thread_pool
