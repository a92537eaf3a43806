import Spdlogger.Main.Shutdown
import Spdlogger.ThreadPool.UnlimitedRound

namespace spdlogger.thread_pool

section bounded

variable {maxThreads : Nat} {Tid Fn Exception : Type}

/-- The function a worker has taken and not yet called. -/
def WorkerPhase.upcoming : WorkerPhase Fn Exception → Multiset Fn
  | .dequeued task => {task.function}
  | _ => 0

/-- The function a worker is inside of. -/
def WorkerPhase.running : WorkerPhase Fn Exception → Multiset Fn
  | .invoking task => {task.function}
  | _ => 0

/-- The functions that have been submitted and not yet called. -/
def State.upcoming (s : State maxThreads Tid Fn Exception) : Multiset Fn :=
  (s.queuedTasks.map QueuedTask.function : List Fn) + ∑ worker, (s.workers worker).upcoming

/-- The functions under way. -/
def State.running (s : State maxThreads Tid Fn Exception) : Multiset Fn :=
  ∑ worker, (s.workers worker).running

/-- The function that a step submits. -/
def Action.submitted : Action maxThreads Tid Fn Exception → Multiset Fn
  | .submit _ function => {function}
  | _ => 0

/-- The function that a step calls. -/
def State.begun (s : State maxThreads Tid Fn Exception) :
    Action maxThreads Tid Fn Exception → Multiset Fn
  | .workerStep worker => (s.workers worker).upcoming
  | _ => 0

/-- The function that a step ends. -/
def State.ended (s : State maxThreads Tid Fn Exception) :
    Action maxThreads Tid Fn Exception → Multiset Fn
  | .returns worker | .throws worker _ => (s.workers worker).running
  | _ => 0

theorem upcoming_wake (phase : WorkerPhase Fn Exception) :
    ((workCondition Fn Exception).wake phase).upcoming = phase.upcoming := by
  cases phase <;> rfl

theorem running_wake (phase : WorkerPhase Fn Exception) :
    ((workCondition Fn Exception).wake phase).running = phase.running := by
  cases phase <;> rfl

theorem State.sum_upcoming_setWorker (s : State maxThreads Tid Fn Exception)
    (worker : Fin maxThreads) (phase : WorkerPhase Fn Exception) :
    (∑ other, ((s.setWorker worker phase).workers other).upcoming) + (s.workers worker).upcoming =
      (∑ other, (s.workers other).upcoming) + phase.upcoming :=
  threads.sum_update_add WorkerPhase.upcoming s.workers worker phase

theorem State.running_setWorker (s : State maxThreads Tid Fn Exception)
    (worker : Fin maxThreads) (phase : WorkerPhase Fn Exception) :
    (s.setWorker worker phase).running + (s.workers worker).running = s.running + phase.running :=
  threads.sum_update_add WorkerPhase.running s.workers worker phase

/-- The queue stays when a worker moves. -/
theorem State.upcoming_setWorker (s : State maxThreads Tid Fn Exception)
    (worker : Fin maxThreads) (phase : WorkerPhase Fn Exception) :
    (s.setWorker worker phase).upcoming + (s.workers worker).upcoming =
      s.upcoming + phase.upcoming := by
  unfold State.upcoming
  rw [add_assoc, s.sum_upcoming_setWorker, ← add_assoc]
  rfl

/-- What a step does to the functions in the pool. -/
structure State.Passes (s next : State maxThreads Tid Fn Exception)
    (action : Action maxThreads Tid Fn Exception) : Prop where
  upcoming : next.upcoming + s.begun action = s.upcoming + action.submitted
  running : next.running + s.ended action = s.running + s.begun action

/-- A step that neither calls a function nor ends one. -/
theorem State.Passes.frame {s next : State maxThreads Tid Fn Exception}
    {action : Action maxThreads Tid Fn Exception} (hsubmitted : action.submitted = 0)
    (hbegun : s.begun action = 0) (hended : s.ended action = 0)
    (hqueue : next.queuedTasks = s.queuedTasks)
    (hupcoming : ∀ worker, (next.workers worker).upcoming = (s.workers worker).upcoming)
    (hrunning : ∀ worker, (next.workers worker).running = (s.workers worker).running) :
    s.Passes next action := by
  constructor
  · rw [hbegun, hsubmitted]
    simp only [State.upcoming, hqueue, hupcoming]
  · rw [hbegun, hended]
    simp only [State.running, hrunning]

/-- A step of a worker that leaves the queue alone. -/
theorem State.Passes.of_setWorker {s next : State maxThreads Tid Fn Exception}
    (worker : Fin maxThreads) {phase : WorkerPhase Fn Exception}
    {action : Action maxThreads Tid Fn Exception} (hsubmitted : action.submitted = 0)
    (hbegun : (s.workers worker).upcoming = phase.upcoming + s.begun action)
    (hended : phase.running + s.ended action = (s.workers worker).running + s.begun action)
    (hqueue : next.queuedTasks = s.queuedTasks)
    (hworkers : next.workers = (s.setWorker worker phase).workers) : s.Passes next action := by
  have hupcoming := s.upcoming_setWorker worker phase
  have hrunning := s.running_setWorker worker phase
  have hsame : next.upcoming = (s.setWorker worker phase).upcoming := by
    simp only [State.upcoming, hqueue, hworkers]
    rfl
  have hrun : next.running = (s.setWorker worker phase).running := by
    simp only [State.running, hworkers]
  constructor
  · rw [hsame, hsubmitted, add_zero]
    refine add_right_cancel (b := phase.upcoming) ?_
    rw [← hupcoming, hbegun, add_assoc, add_comm (s.begun action)]
  · rw [hrun]
    refine add_right_cancel (b := (s.workers worker).running) ?_
    calc (s.setWorker worker phase).running + s.ended action + (s.workers worker).running
        = s.running + (phase.running + s.ended action) := by
          rw [add_right_comm, hrunning, add_assoc]
      _ = s.running + s.begun action + (s.workers worker).running := by
          rw [hended, ← add_assoc, add_right_comm]

variable [DecidableEq Tid]

/-- Every move of the pool does this to its functions. -/
theorem State.Move.passes {s next : State maxThreads Tid Fn Exception}
    {action : Action maxThreads Tid Fn Exception} (hmove : s.Move action next) :
    s.Passes next action := by
  cases hmove with
  | submit client function =>
    refine ⟨?_, rfl⟩
    simp only [State.upcoming, State.begun, Action.submitted, List.map_append, List.map_singleton,
      ← Multiset.coe_add, Multiset.coe_singleton, add_zero]
    exact add_right_comm _ _ _
  | notify client target =>
    exact .frame rfl rfl rfl rfl
      ((workCondition Fn Exception).apply_notifyOne upcoming_wake s.workers target)
      ((workCondition Fn Exception).apply_notifyOne running_wake s.workers target)
  | wait | pass | sleep | spuriousDone | destruct | stop | join | destroy =>
    exact .frame rfl rfl rfl rfl (fun _ => rfl) fun _ => rfl
  | wake =>
    exact .frame rfl rfl rfl rfl (fun worker => upcoming_wake (s.workers worker))
      fun worker => running_wake (s.workers worker)
  | dequeue worker task rest hphase hqueue =>
    have hsum := s.sum_upcoming_setWorker worker (.dequeued task)
    have hrunning := s.running_setWorker worker (.dequeued task)
    have hnone : (s.workers worker).upcoming = 0 := by rw [hphase]; rfl
    have hidle : (s.workers worker).running = 0 := by rw [hphase]; rfl
    have htask : (.dequeued task : WorkerPhase Fn Exception).upcoming = {task.function} := rfl
    rw [hnone, htask, add_zero] at hsum
    rw [hidle, add_zero] at hrunning
    constructor
    · simp only [State.upcoming, State.begun, Action.submitted, hnone, hqueue, List.map_cons,
        ← Multiset.cons_coe, add_zero, ← Multiset.singleton_add]
      rw [hsum]
      abel
    · have hended : s.ended (.workerStep worker) = 0 := rfl
      rw [State.begun, hnone, hended, add_zero]
      exact hrunning
  | block worker hphase | exit worker hphase | invoke worker task hphase
  | record worker task exception hphase | retire worker task hphase | spuriousWork worker hphase
  | returns worker task hphase | throws worker task exception hphase =>
    refine .of_setWorker worker rfl ?_ ?_ rfl rfl <;>
      simp [State.begun, State.ended, WorkerPhase.upcoming, WorkerPhase.running, hphase]

omit [DecidableEq Tid] in
/-- Nothing is left of the functions in an emptied pool. -/
theorem State.Emptied.idle {s : State maxThreads Tid Fn Exception} (h : s.Emptied) :
    s.upcoming = 0 ∧ s.running = 0 := by
  have hworker (worker : Fin maxThreads) :
      (s.workers worker).upcoming = 0 ∧ (s.workers worker).running = 0 := by
    have hheld := h.held worker
    cases hphase : s.workers worker with
    | dequeued task | invoking task => simp [hphase] at hheld
    | _ => exact ⟨rfl, rfl⟩
  constructor
  · simp only [State.upcoming, h.queue, fun worker => (hworker worker).1]
    simp
  · simp only [State.running, fun worker => (hworker worker).2]
    simp

end bounded

end spdlogger.thread_pool

namespace spdlogger.thread_pool.unlimited

variable {Fn Exception : Type}

/-- The function of a thread that has not called it yet. -/
def Thread.upcoming (thread : Thread Fn) : Multiset Fn :=
  match thread.phase with
  | .started => {thread.function}
  | .invoking | .finished => 0

/-- The function a thread is inside of. -/
def Thread.running (thread : Thread Fn) : Multiset Fn :=
  match thread.phase with
  | .invoking => {thread.function}
  | .started | .finished => 0

/-- The functions that have been submitted and not yet called. -/
def State.upcoming (s : State Fn) : Multiset Fn := (s.workerThreads.map Thread.upcoming).sum

/-- The functions under way. -/
def State.running (s : State Fn) : Multiset Fn := (s.workerThreads.map Thread.running).sum

/-- The function that a step submits. -/
def Action.submitted : Action Fn Exception → Multiset Fn
  | .submit function => {function}
  | _ => 0

/-- The function that a step calls. -/
def State.begun (s : State Fn) : Action Fn Exception → Multiset Fn
  | .invoke index => (s.workerThreads[index]?).elim 0 Thread.upcoming
  | _ => 0

/-- The function that a step ends. -/
def State.ended (s : State Fn) : Action Fn Exception → Multiset Fn
  | .returns index => (s.workerThreads[index]?).elim 0 Thread.running
  | _ => 0

/-- The loop of `wait` has passed only threads that are through. -/
def State.Joined (s : State Fn) : Prop :=
  ∀ index, s.caller = .joining index → ∀ thread ∈ s.workerThreads.take index, thread.phase = .finished

/-- Moving a thread that is not through keeps the joins. -/
theorem State.Joined.setPhase {s next : State Fn} (h : s.Joined) {index : Nat} {thread : Thread Fn}
    (hthread : s.workerThreads[index]? = some thread) (hrunning : thread.phase ≠ .finished)
    {phase : ThreadPhase} (hcaller : next.caller = s.caller)
    (hthreads : next.workerThreads = (s.setPhase index thread phase).workerThreads) :
    next.Joined := by
  intro joined hjoining other hother
  have hearlier := h joined (hcaller.symm.trans hjoining)
  have hfar : joined ≤ index := by
    by_contra hnear
    refine hrunning (hearlier thread ?_)
    exact List.mem_of_getElem? ((List.getElem?_take_of_lt (Nat.not_le.mp hnear)).trans hthread)
  rw [hthreads, State.setPhase, List.take_set_of_le hfar] at hother
  exact hearlier other hother

/-- Each step keeps the joins. -/
theorem State.Joined.step {s next : State Fn} (h : s.Joined) {action : Action Fn Exception}
    (hmove : s.Move action next) : next.Joined := by
  cases hmove with
  | submit function hidle =>
    intro index hcaller
    rw [hidle] at hcaller
    cases hcaller
  | wait hidle =>
    rintro index ⟨⟩ thread hthread
    simp at hthread
  | join index thread hcaller hthread hphase =>
    rintro _ ⟨⟩ other hother
    rw [List.take_add_one, List.mem_append, hthread] at hother
    obtain hearlier | hlast := hother
    · exact h index hcaller other hearlier
    · simp only [Option.toList_some, List.mem_singleton] at hlast
      rw [hlast]
      exact hphase
  | clear => exact nofun
  | invoke index thread hthread hphase => exact h.setPhase hthread (by simp [hphase]) rfl rfl
  | returns index thread hthread hphase => exact h.setPhase hthread (by simp [hphase]) rfl rfl
  | throws => exact h

/-- In every reachable state `wait` has passed only threads that are through. -/
theorem State.joined_of_reachable {s : State Fn} (hreach : (poolMachine Fn Exception).Reachable s) :
    s.Joined := by
  refine transition.Machine.Reachable.invariant ?_ ?_ hreach
  · rintro s rfl index hcaller
    cases hcaller
  · exact fun s action next h hstep => h.step (State.move_of_step hstep).2

/-- What a step does to the functions in the pool. -/
structure State.Passes (s next : State Fn) (action : Action Fn Exception) : Prop where
  upcoming : next.upcoming + s.begun action = s.upcoming + action.submitted
  running : next.running + s.ended action = s.running + s.begun action

/-- With all threads through, no function is left. -/
theorem State.idle_of_finished {s : State Fn}
    (h : ∀ thread ∈ s.workerThreads, thread.phase = .finished) :
    s.upcoming = 0 ∧ s.running = 0 := by
  constructor
  · refine List.sum_eq_zero fun functions hfunctions => ?_
    obtain ⟨thread, hthread, rfl⟩ := List.mem_map.mp hfunctions
    simp [Thread.upcoming, h thread hthread]
  · refine List.sum_eq_zero fun functions hfunctions => ?_
    obtain ⟨thread, hthread, rfl⟩ := List.mem_map.mp hfunctions
    simp [Thread.running, h thread hthread]

theorem State.Passes.of_setPhase {s next : State Fn} {index : Nat} {thread : Thread Fn}
    (hthread : s.workerThreads[index]? = some thread) (phase : ThreadPhase)
    {action : Action Fn Exception} (hsubmitted : action.submitted = 0)
    (hbegun : thread.upcoming = { thread with phase }.upcoming + s.begun action)
    (hended : { thread with phase }.running + s.ended action = thread.running + s.begun action)
    (hthreads : next.workerThreads = (s.setPhase index thread phase).workerThreads) :
    s.Passes next action := by
  obtain ⟨before, after, _, hsplit, hset⟩ := State.setPhase_split hthread
  constructor
  · simp only [State.upcoming, hthreads, hset, hsplit, List.map_append, List.map_cons,
      List.sum_append, List.sum_cons, hsubmitted, hbegun]
    abel
  · simp only [State.running, hthreads, hset, hsplit, List.map_append, List.map_cons,
      List.sum_append, List.sum_cons]
    calc _ = (before.map Thread.running).sum + (after.map Thread.running).sum +
          ({ thread with phase }.running + s.ended action) := by abel
      _ = _ := by
          rw [hended]
          abel

theorem State.Move.passes {s next : State Fn} (h : s.Joined) {action : Action Fn Exception}
    (hmove : s.Move action next) : s.Passes next action := by
  cases hmove with
  | submit function =>
    constructor
    · simp [State.upcoming, State.begun, Action.submitted, Thread.upcoming]
    · simp [State.running, State.begun, State.ended, Thread.running]
  | wait | join | throws => exact ⟨rfl, rfl⟩
  | clear index hcaller hthread =>
    obtain ⟨hupcoming, hrunning⟩ := State.idle_of_finished fun thread hmem => by
      refine h index hcaller thread ?_
      rwa [List.take_of_length_le (List.getElem?_eq_none_iff.mp hthread)]
    exact ⟨by rw [hupcoming]; rfl, by rw [hrunning]; rfl⟩
  | invoke index thread hthread hphase =>
    refine .of_setPhase hthread .invoking rfl ?_ ?_ rfl
    · simp [State.begun, hthread, Thread.upcoming, hphase]
    · simp [State.begun, State.ended, hthread, Thread.upcoming, Thread.running, hphase]
  | returns index thread hthread hphase =>
    refine .of_setPhase hthread .finished rfl ?_ ?_ rfl
    · simp [State.begun, Thread.upcoming, hphase]
    · simp [State.begun, State.ended, hthread, Thread.running, hphase]

end spdlogger.thread_pool.unlimited
