import Spdlogger.ThreadPool.Released

namespace spdlogger.thread_pool

variable {maxThreads : Nat} {Tid Fn Exception : Type}

/-- An exception comes out of a task. -/
def Action.isThrow : Action maxThreads Tid Fn Exception → Bool
  | .throws _ _ => true
  | _ => false

/-- No exception is recorded, and none is on its way from a task that has thrown. -/
structure State.Unthrown (s : State maxThreads Tid Fn Exception) : Prop where
  first : s.firstException = none
  caught : ∀ worker task exception, s.workers worker ≠ .caught task exception

/-- Nothing is queued, and no worker has a task. -/
structure State.Emptied (s : State maxThreads Tid Fn Exception) : Prop where
  queue : s.queuedTasks = []
  held : ∀ worker, (s.workers worker).held = 0

/-- Where nothing is queued or in progress, no worker has a task. -/
theorem State.Settled.emptied_of_allDone {s : State maxThreads Tid Fn Exception} (h : s.Settled)
    (hdone : s.allDone) : s.Emptied := by
  simp only [State.allDone, Bool.and_eq_true, List.isEmpty_iff, decide_eq_true_eq] at hdone
  have hsum := h.inProgress_eq
  rw [hdone.2] at hsum
  refine ⟨hdone.1, fun worker => ?_⟩
  exact Finset.sum_eq_zero_iff.mp hsum.symm worker (Finset.mem_univ _)

/-- The destructor is past its `wait`. -/
def DestructorPhase.hasWaited : DestructorPhase → Bool
  | .stopping | .notifying | .joining _ | .destroyed => true
  | .live | .waiting | .terminated => false

/-- What a step of a released pool does to its tasks and exceptions. It takes the
destructor past its `wait`, or it forgets no exception, brings none but by a throw,
and puts nothing into an emptied pool. -/
inductive InsideMove (s next : State maxThreads Tid Fn Exception) (throws : Bool) : Prop where
  | passed (hquiet : throws = false) (hdone : s.allDone) (hwaiting : s.destructor = .waiting)
      (hdestructor : next.destructor =
        if s.firstException.isSome then .terminated else .stopping)
      (hfirst : next.firstException = none) (hworkers : next.workers = s.workers)
      (hqueue : next.queuedTasks = s.queuedTasks)
  | moved (hwaited : next.destructor.hasWaited = s.destructor.hasWaited)
      (hrunning : next.destructor ≠ .terminated)
      (hunthrown : throws = false → (next.Unthrown ↔ s.Unthrown))
      (hthrown : throws = true → ¬ next.Unthrown)
      (hemptied : s.Emptied → throws = false ∧ next.Emptied)

/-- Only the recorded exception and those on their way matter. -/
theorem State.unthrown_congr {s next : State maxThreads Tid Fn Exception}
    (hfirst : next.firstException = s.firstException)
    (hcaught : ∀ worker task exception, next.workers worker = .caught task exception ↔
      s.workers worker = .caught task exception) : next.Unthrown ↔ s.Unthrown := by
  constructor
  · intro h
    refine ⟨hfirst.symm.trans h.first, fun worker task exception hphase => ?_⟩
    exact h.caught worker task exception ((hcaught worker task exception).mpr hphase)
  · intro h
    refine ⟨hfirst.trans h.first, fun worker task exception hphase => ?_⟩
    exact h.caught worker task exception ((hcaught worker task exception).mp hphase)

/-- A step that moves no task and no exception. -/
theorem InsideMove.frame {s next : State maxThreads Tid Fn Exception}
    (hwaited : next.destructor.hasWaited = s.destructor.hasWaited)
    (hrunning : next.destructor ≠ .terminated) (hfirst : next.firstException = s.firstException)
    (hqueue : next.queuedTasks = s.queuedTasks)
    (hheld : ∀ worker, (next.workers worker).held = (s.workers worker).held)
    (hcaught : ∀ worker task exception, next.workers worker = .caught task exception ↔
      s.workers worker = .caught task exception) : InsideMove s next false := by
  refine .moved hwaited hrunning (fun _ => State.unthrown_congr hfirst hcaught) (by simp) ?_
  intro hemptied
  exact ⟨rfl, hqueue.trans hemptied.queue, fun worker => (hheld worker).trans (hemptied.held worker)⟩

/-- Moving a worker that has caught nothing leaves those that have. -/
theorem State.caught_setWorker {s : State maxThreads Tid Fn Exception} {worker : Fin maxThreads}
    {phase : WorkerPhase Fn Exception} {task : QueuedTask Fn} {exception : Exception}
    (hbefore : s.workers worker ≠ .caught task exception) (hafter : phase ≠ .caught task exception)
    (other : Fin maxThreads) :
    (s.setWorker worker phase).workers other = .caught task exception ↔
      s.workers other = .caught task exception :=
  ⟨fun hphase => threads.phase_of_update hphase hafter,
    fun hphase => threads.update_of_phase_ne hphase hbefore⟩

theorem caught_wake (phase : WorkerPhase Fn Exception) (task : QueuedTask Fn)
    (exception : Exception) : (workCondition Fn Exception).wake phase = .caught task exception ↔
      phase = .caught task exception := by
  cases phase <;> simp [workCondition]

/-- A worker that keeps its task and is not about to record an exception. -/
theorem InsideMove.of_setWorker {s next : State maxThreads Tid Fn Exception}
    (hrunning : s.destructor ≠ .terminated) {worker : Fin maxThreads}
    {phase : WorkerPhase Fn Exception} (hheld : phase.held = (s.workers worker).held)
    (hbefore : ∀ task exception, s.workers worker ≠ .caught task exception)
    (hafter : ∀ task exception, phase ≠ .caught task exception)
    (hworkers : next.workers = (s.setWorker worker phase).workers)
    (hdestructor : next.destructor = s.destructor) (hfirst : next.firstException = s.firstException)
    (hqueue : next.queuedTasks = s.queuedTasks) : InsideMove s next false := by
  refine .frame (by rw [hdestructor]) (hdestructor ▸ hrunning) hfirst hqueue ?_ ?_
  · rw [hworkers]
    exact s.held_setWorker hheld
  · intro other task exception
    rw [hworkers]
    exact s.caught_setWorker (hbefore task exception) (hafter task exception) other

/-- A pool in which a worker has a task is not emptied. -/
theorem State.not_emptied {s : State maxThreads Tid Fn Exception} (worker : Fin maxThreads)
    (hheld : (s.workers worker).held ≠ 0) : ¬ s.Emptied :=
  fun hemptied => hheld (hemptied.held worker)

variable [DecidableEq Tid]

/-- Only a running task submits from inside. -/
theorem InsideMove.of_submit {s : State maxThreads Tid Fn Exception}
    (hrunning : s.destructor ≠ .terminated) {client : Client Tid maxThreads} {function : Fn}
    (hinside : (Action.submit client function : Action maxThreads Tid Fn Exception).FromInside)
    (hcall : s.mayCall client) : InsideMove s { s.setClient client .notifying with
      nextTaskId := Int.bmod (s.nextTaskId + 1) (2 ^ 32)
      queuedTasks := s.queuedTasks ++ [⟨s.nextTaskId, function⟩]
      submitted := s.submitted ++ [⟨s.nextTaskId, function⟩] } false := by
  cases client with
  | task worker =>
    simp only [State.mayCall, Bool.and_eq_true] at hcall
    have hbusy : (s.workers worker).held ≠ 0 := by
      cases hphase : s.workers worker with
      | invoking task => simp
      | _ => simp [hphase, WorkerPhase.isInvoking] at hcall
    exact .moved rfl hrunning (fun _ => State.unthrown_congr rfl fun _ _ _ => Iff.rfl) (by simp)
      fun hemptied => absurd hemptied (State.not_emptied worker hbusy)
  | caller | destructor => exact hinside.elim

theorem InsideMove.of_notify {s : State maxThreads Tid Fn Exception}
    (hrunning : s.destructor ≠ .terminated) (client : Client Tid maxThreads)
    (target : Option (Fin maxThreads)) : InsideMove s { s.setClient client .idle with
      workers := (workCondition Fn Exception).notifyOne s.workers target } false := by
  refine .frame rfl hrunning rfl rfl
    ((workCondition Fn Exception).apply_notifyOne held_wake s.workers target) ?_
  intro worker task exception
  have hsame := (workCondition Fn Exception).apply_notifyOne
    (F := fun phase => phase = .caught task exception)
    (fun phase => propext (caught_wake phase task exception)) s.workers target worker
  exact iff_of_eq hsame

omit [DecidableEq Tid] in
/-- The exception that a worker has on its way is recorded. -/
theorem InsideMove.of_record {s : State maxThreads Tid Fn Exception}
    (hrunning : s.destructor ≠ .terminated) {worker : Fin maxThreads} {task : QueuedTask Fn}
    {exception : Exception} (hphase : s.workers worker = .caught task exception)
    {log : List (LogEntry Exception)} : InsideMove s { s.setWorker worker (.retiring task) with
      firstException := s.firstException.or (some exception), log } false := by
  refine .moved rfl hrunning (fun _ => ⟨fun hunthrown => ?_, fun hunthrown => ?_⟩) (by simp)
    fun hemptied => absurd hemptied (State.not_emptied worker (by simp [hphase]))
  · have hnone : s.firstException.or (some exception) = none := hunthrown.first
    simp at hnone
  · exact absurd hphase (hunthrown.caught worker task exception)

/-- Every step from inside is one of these moves. -/
theorem InsideMove.of_step {s next : State maxThreads Tid Fn Exception} (h : s.Released)
    (hwaits : s.destructor = .waiting ↔ s.clients .destructor ≠ .idle)
    {action : Action maxThreads Tid Fn Exception} (hinside : action.FromInside)
    (hstep : s.step action = some next) : InsideMove s next action.isThrow := by
  obtain ⟨hrunning, hmove⟩ := State.move_of_step hstep
  cases hmove with
  | submit client function hcall => exact .of_submit hrunning hinside hcall
  | notify client target => exact .of_notify hrunning client target
  | wait => exact hinside.elim
  | pass client hclient hdone destructor hdestructor =>
    have hself : client = .destructor := h.waits (by simp [hclient]) (by simp [hclient])
    subst hself
    have hwaiting := hwaits.mpr (by simp [hclient])
    exact .passed rfl hdone hwaiting (by simpa using hdestructor) rfl rfl rfl
  | sleep | spuriousDone =>
    exact .frame rfl hrunning rfl rfl (fun _ => rfl) fun _ _ _ => Iff.rfl
  | block worker hphase | exit worker hphase | invoke worker task hphase
  | returns worker task hphase | spuriousWork worker hphase =>
    exact .of_setWorker hrunning (by simp [hphase]) (by simp [hphase]) (by simp) rfl rfl rfl rfl
  | dequeue worker task rest hphase hqueue =>
    refine .moved rfl hrunning (fun _ => State.unthrown_congr rfl fun other held exception => ?_)
      (by simp [Action.isThrow]) fun hemptied => ?_
    · exact s.caught_setWorker (by simp [hphase]) (by simp) other
    · rw [hemptied.queue] at hqueue
      cases hqueue
  | record worker task exception hphase => exact .of_record hrunning hphase
  | retire worker task hphase =>
    refine .moved rfl hrunning (fun _ => State.unthrown_congr rfl fun other held exception => ?_)
      (by simp [Action.isThrow]) fun hemptied => ?_
    · exact s.caught_setWorker (by simp [hphase]) (by simp) other
    · exact absurd hemptied (State.not_emptied worker (by simp [hphase]))
  | throws worker task exception hphase =>
    refine .moved rfl hrunning (by simp [Action.isThrow]) (fun _ hunthrown => ?_) fun hemptied => ?_
    · exact hunthrown.caught worker task exception (Function.update_self ..)
    · exact absurd hemptied (State.not_emptied worker (by simp [hphase]))
  | destruct hphase | stop hphase | join _ hphase | destroy _ hphase =>
    refine .frame ?_ (by simp) rfl rfl (fun _ => rfl) fun _ _ _ => Iff.rfl
    rw [hphase]
    rfl
  | wake hphase =>
    refine .frame ?_ (by simp) rfl rfl (fun worker => held_wake (s.workers worker))
      fun worker => caught_wake (s.workers worker)
    rw [hphase]
    rfl

/-- Only a submission puts something into an emptied pool. -/
theorem State.Emptied.step {s next : State maxThreads Tid Fn Exception} (h : s.Emptied)
    {action : Action maxThreads Tid Fn Exception}
    (hcall : ∀ client function, action ≠ .submit client function)
    (hstep : s.step action = some next) : next.Emptied := by
  have hfree {worker : Fin maxThreads} {phase : WorkerPhase Fn Exception} (hphase : phase.held = 0) :
      (s.setWorker worker phase).Emptied := by
    refine ⟨h.queue, fun other => ?_⟩
    rw [s.held_setWorker (hphase.trans (h.held worker).symm)]
    exact h.held other
  cases (State.move_of_step hstep).2 with
  | submit client function => exact absurd rfl (hcall client function)
  | notify client target =>
    refine ⟨h.queue, fun worker => ?_⟩
    rw [← h.held worker]
    exact (workCondition Fn Exception).apply_notifyOne held_wake s.workers target worker
  | wait | pass | sleep | spuriousDone | destruct | stop | join | destroy =>
    exact ⟨h.queue, h.held⟩
  | wake => exact ⟨h.queue, fun worker => (held_wake _).trans (h.held worker)⟩
  | block | exit | spuriousWork => exact hfree rfl
  | dequeue _ _ _ _ hqueue =>
    rw [h.queue] at hqueue
    cases hqueue
  | invoke worker _ hphase | record worker _ _ hphase | retire worker _ hphase
  | returns worker _ hphase | throws worker _ _ hphase =>
    have hheld := h.held worker
    simp [hphase] at hheld

end spdlogger.thread_pool
