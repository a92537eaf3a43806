import Mathlib.Algebra.Order.BigOperators.Group.Finset
import Mathlib.Tactic.Tauto
import Spdlogger.ThreadPool.Accounting

namespace spdlogger.thread_pool

variable {maxThreads : Nat} {Tid Fn Exception : Type} [DecidableEq Tid]

/-- Exactly one of three. -/
def ExactlyOne (p q r : Prop) : Prop :=
  (p ∧ ¬ q ∧ ¬ r) ∨ (¬ p ∧ q ∧ ¬ r) ∨ (¬ p ∧ ¬ q ∧ r)

omit [DecidableEq Tid] in
/-- The ids of all submitted tasks, by where the tasks are. -/
theorem State.Settled.ids_submitted {s : State maxThreads Tid Fn Exception} (h : s.Settled)
    (hnumbered : s.Numbered) :
    ids s.submitted = s.inProgressTasks.val + s.finished + ids s.queuedTasks := by
  rw [← hnumbered.submitted_eq, ids_append, h.dequeued_eq, h.inProgress_eq]

omit [DecidableEq Tid] in
/-- A submitted task is queued, in progress or finished, and only one of these. -/
theorem State.Settled.exactlyOne {s : State maxThreads Tid Fn Exception} (h : s.Settled)
    (hnumbered : s.Numbered) (hdistinct : s.DistinctIds) {id : Int} (hid : id ∈ ids s.submitted) :
    ExactlyOne (id ∈ ids s.queuedTasks) (id ∈ s.inProgressTasks) (id ∈ s.finished) := by
  have hnodup : (ids s.submitted).Nodup := hdistinct
  rw [h.ids_submitted hnumbered, Multiset.nodup_add, Multiset.nodup_add] at hnodup
  rw [h.ids_submitted hnumbered, Multiset.mem_add, Multiset.mem_add, Multiset.mem_coe] at hid
  obtain ⟨⟨_, _, hbusy⟩, _, hqueue⟩ := hnodup
  have hprogress (hmem : id ∈ s.inProgressTasks) : id ∉ ids s.queuedTasks ∧ id ∉ s.finished :=
    ⟨Multiset.disjoint_left.mp hqueue (Multiset.mem_add.mpr (.inl hmem)),
      fun hfinished => Multiset.disjoint_left.mp hbusy hmem (Multiset.mem_coe.mpr hfinished)⟩
  have hfinished (hmem : id ∈ s.finished) : id ∉ ids s.queuedTasks :=
    Multiset.disjoint_left.mp hqueue (Multiset.mem_add.mpr (.inr (Multiset.mem_coe.mpr hmem)))
  unfold ExactlyOne
  have hprogress' : id ∈ s.inProgressTasks.val ↔ id ∈ s.inProgressTasks := Iff.rfl
  rw [hprogress'] at hid
  tauto

omit [DecidableEq Tid] in
/-- The task in the hands of a worker is not finished. -/
theorem State.Settled.not_finished {s : State maxThreads Tid Fn Exception} (h : s.Settled)
    (hnumbered : s.Numbered) (hdistinct : s.DistinctIds) {worker : Fin maxThreads} {id : Int}
    (hid : id ∈ (s.workers worker).held) : id ∉ s.finished := by
  have hnodup : (ids s.submitted).Nodup := hdistinct
  rw [h.ids_submitted hnumbered, Multiset.nodup_add, Multiset.nodup_add] at hnodup
  have hprogress : id ∈ s.inProgressTasks.val := by
    rw [h.inProgress_eq]
    exact Multiset.mem_sum.mpr ⟨worker, Finset.mem_univ _, hid⟩
  intro hfinished
  exact Multiset.disjoint_left.mp hnodup.1.2.2 hprogress (Multiset.mem_coe.mpr hfinished)

omit [DecidableEq Tid] in
/-- No more tasks are in progress than there are workers. -/
theorem State.Settled.card_inProgress_le {s : State maxThreads Tid Fn Exception} (h : s.Settled) :
    s.inProgressTasks.card ≤ maxThreads := by
  have hone (worker : Fin maxThreads) : (s.workers worker).held.card ≤ 1 := by
    cases s.workers worker <;> simp [WorkerPhase.held]
  calc s.inProgressTasks.card = (∑ worker, (s.workers worker).held).card := by
        rw [← h.inProgress_eq]
        rfl
    _ = ∑ worker, (s.workers worker).held.card := map_sum Multiset.cardHom _ _
    _ ≤ ∑ _worker : Fin maxThreads, 1 := Finset.sum_le_sum fun worker _ => hone worker
    _ = maxThreads := by simp

omit [DecidableEq Tid] in
/-- With nothing queued and nothing in progress, everything is finished. -/
theorem State.Settled.finished_of_allDone {s : State maxThreads Tid Fn Exception} (h : s.Settled)
    (hnumbered : s.Numbered) (hdone : s.allDone) {task : QueuedTask Fn}
    (htask : task ∈ s.submitted) : task.id ∈ s.finished := by
  simp only [State.allDone, Bool.and_eq_true, List.isEmpty_iff, decide_eq_true_eq] at hdone
  have hids := h.ids_submitted hnumbered
  rw [hdone.1, hdone.2] at hids
  have hmem : task.id ∈ ids s.submitted := Multiset.mem_coe.mpr (List.mem_map_of_mem htask)
  rw [hids] at hmem
  simpa using hmem

omit [DecidableEq Tid] in
/-- A task whose function is still to be called is in the hands of its worker, so
what is finished has been invoked. -/
theorem State.Settled.finished_le_invoked {s : State maxThreads Tid Fn Exception} (h : s.Settled) :
    (s.finished : Multiset Int) ≤ s.invoked := by
  have hpending : (∑ worker, (s.workers worker).pending) ≤ ∑ worker, (s.workers worker).held :=
    Finset.sum_le_sum fun worker _ => pending_le_held (s.workers worker)
  have hbooks := h.dequeued_eq.symm.trans h.invoked_eq
  refine le_of_add_le_add_left (a := ∑ worker, (s.workers worker).held) ?_
  calc (∑ worker, (s.workers worker).held) + (s.finished : Multiset Int)
      = s.invoked + ∑ worker, (s.workers worker).pending := hbooks
    _ ≤ s.invoked + ∑ worker, (s.workers worker).held := add_le_add_right hpending _
    _ = (∑ worker, (s.workers worker).held) + s.invoked := add_comm _ _

/-- A client that passes the test of its wait has found the predicate true. -/
theorem State.allDone_of_leaves {s next : State maxThreads Tid Fn Exception}
    {client : Client Tid maxThreads} (hstep : s.step (.testDone client) = some next)
    (hleaves : next.clients client ≠ .blocked) : s.allDone := by
  cases (State.move_of_step hstep).2 with
  | pass _ _ hdone => exact hdone
  | sleep => exact absurd (by simp [State.setClient]) hleaves

/-- Exactly once, and a full barrier. In every reachable state with fewer than
2 ^ 31 submissions each task is queued, in progress or finished, and only one of
these; tasks leave the queue in order and are invoked at most once, those that are
finished exactly once; and a client leaves the wait of `wait` only when everything
submitted before has been invoked and is finished. -/
theorem State.tasks_exactly_once {s : State maxThreads Tid Fn Exception}
    (hreach : (poolMachine maxThreads Tid Fn Exception).Reachable s)
    (hcount : s.submitted.length < 2 ^ 31) :
    (∀ task ∈ s.submitted, ExactlyOne (task.id ∈ s.queuedTasks.map QueuedTask.id)
      (task.id ∈ s.inProgressTasks) (task.id ∈ s.finished)) ∧
    (s.submitted.map QueuedTask.id).Nodup ∧
    s.dequeued ++ s.queuedTasks = s.submitted ∧
    s.inProgressTasks.card ≤ maxThreads ∧
    s.invoked.Nodup ∧ s.finished.Nodup ∧ (∀ id ∈ s.finished, id ∈ s.invoked) ∧
    ∀ client next, s.step (.testDone client) = some next → next.clients client ≠ .blocked →
      ∀ task ∈ s.submitted, task.id ∈ s.finished ∧ s.invoked.count task.id = 1 := by
  have haccounts := State.accounts_of_reachable hreach
  have hdistinct := haccounts.numbered.distinctIds hcount
  have hsettled := haccounts.settled hdistinct
  have hdequeued : (ids s.dequeued).Nodup := by
    refine Multiset.nodup_of_le ?_ hdistinct
    rw [← haccounts.numbered.submitted_eq, ids_append]
    exact Multiset.le_add_right _ _
  have hinvoked : s.invoked.Nodup := by
    refine Multiset.coe_nodup.mp (Multiset.nodup_of_le ?_ hdequeued)
    rw [hsettled.invoked_eq]
    exact Multiset.le_add_right _ _
  have hcalled (id : Int) (hid : id ∈ s.finished) : id ∈ s.invoked :=
    Multiset.mem_coe.mp (Multiset.mem_of_le hsettled.finished_le_invoked (Multiset.mem_coe.mpr hid))
  refine ⟨?_, hdistinct, haccounts.numbered.submitted_eq, hsettled.card_inProgress_le, hinvoked,
    ?_, hcalled, ?_⟩
  · intro task htask
    exact hsettled.exactlyOne haccounts.numbered hdistinct
      (Multiset.mem_coe.mpr (List.mem_map_of_mem htask))
  · refine Multiset.coe_nodup.mp (Multiset.nodup_of_le ?_ hdequeued)
    rw [hsettled.dequeued_eq]
    exact Multiset.le_add_left _ _
  · intro client next hstep hleaves task htask
    have hfinished : task.id ∈ s.finished :=
      hsettled.finished_of_allDone haccounts.numbered (State.allDone_of_leaves hstep hleaves) htask
    exact ⟨hfinished, List.count_eq_one_of_mem hinvoked (hcalled _ hfinished)⟩

/-- A task submits another one while the caller waits for it: the wait ends after
both. -/
theorem tasks_exactly_once_two_tasks :
    ∃ s next : State 2 Unit Unit Unit, (poolMachine 2 Unit Unit Unit).Reachable s ∧
      s.submitted = [⟨0, ()⟩, ⟨1, ()⟩] ∧ s.step (.testDone (.caller ())) = some next ∧
      next.log = [.finished 0, .finished 1, .waited none] ∧
      ∀ task ∈ s.submitted, task.id ∈ s.finished ∧ s.invoked.count task.id = 1 := by
  obtain ⟨s, hreach, hcheck⟩ := transition.Machine.exists_reachable_of_run
    (M := poolMachine 2 Unit Unit Unit) (s := {}) rfl
    [.submit (.caller ()) (), .notify (.caller ()) none, .workerStep 0, .workerStep 0,
      .submit (.task 0) (), .notify (.task 0) none, .wait (.caller ()), .testDone (.caller ()),
      .workerStep 1, .workerStep 1, .returns 0, .workerStep 0, .returns 1, .workerStep 1]
    (fun s => s.submitted = [⟨0, ()⟩, ⟨1, ()⟩] &&
      (s.step (.testDone (.caller ()))).any fun next => next.clients (.caller ()) = .idle ∧
        next.log = [.finished 0, .finished 1, .waited none]) (by decide)
  rw [Bool.and_eq_true, decide_eq_true_eq] at hcheck
  obtain ⟨hsubmitted, hleaves⟩ := hcheck
  obtain ⟨next, hstep, hleft⟩ := (Option.any_eq_true _ _).mp hleaves
  obtain ⟨hidle, hlog⟩ := of_decide_eq_true hleft
  have hcount : s.submitted.length < 2 ^ 31 := by
    rw [hsubmitted]
    decide
  obtain ⟨_, _, _, _, _, _, _, hbarrier⟩ := State.tasks_exactly_once hreach hcount
  exact ⟨s, next, hreach, hsubmitted, hstep, hlog, hbarrier _ next hstep (by simp [hidle])⟩

end spdlogger.thread_pool
