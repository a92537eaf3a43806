import Spdlogger.Library.Progress
import Spdlogger.Library.Threads
import Spdlogger.ConcurrentMetrics.Joining

namespace spdlogger.concurrent_metrics

variable {workersCount eventBatchSize : Nat}

/-- How many steps a worker has at most before it once its loop test fails. -/
def WorkerPhase.remaining : WorkerPhase → Nat
  | .notCreated | .exited => 0
  | .caught => 1
  | .merging last _ => if last then 2 else 6
  | .flushing last => if last then 3 else 7
  | .testingInternalStop => 4
  | .testingStop => 5
  | .creating => 8

/-- The steps the reporter has left once it is told to stop. -/
def ReporterPhase.remaining : ReporterPhase → Nat
  | .notCreated | .exited => 0
  | .caught => 1
  | .reporting last _ => if last then 2 else 6
  | .snapshotting last => if last then 3 else 7
  | .testingInternalStop => 4
  | .testingStop => 5

/-- The same for `run`, with the steps of the threads it has yet to create. -/
def MainPhase.remaining (workersCount : Nat) : MainPhase → Nat
  | .creatingWorker index => 6 * (workersCount - index) + workersCount + 10
  | .workerCreationFailed => workersCount + 9
  | .creatingReporter => workersCount + 8
  | .reporterCreationFailed => workersCount + 3
  | .joining index => workersCount - index + 2
  | .checking => 1
  | .returned | .threw => 0

/-- The steps that all threads have left once they are told to stop. -/
def State.remaining (s : State workersCount) : Nat :=
  (∑ workerId, (s.phases workerId).remaining) + s.reporter.remaining +
    s.main.remaining workersCount

/-- A step that a thread takes unless something is thrown. -/
def Action.proceeds : Action workersCount → Bool
  | .setStop | .workerThrows _ | .reporterThrows => false
  | .mainStep _ | .createRandom _ _ | .workerStep _ | .reporterStep => true

/-- Inside its `try` block a worker has more than its last step left. -/
theorem WorkerPhase.one_lt_remaining {phase : WorkerPhase} (hrunning : phase.running) :
    1 < phase.remaining := by
  cases phase with
  | notCreated | caught | exited => cases hrunning
  | merging last | flushing last => cases last <;> simp [WorkerPhase.remaining]
  | testingStop | testingInternalStop | creating => decide

/-- So has the reporter. -/
theorem ReporterPhase.one_lt_remaining {phase : ReporterPhase} (hrunning : phase.running) :
    1 < phase.remaining := by
  cases phase with
  | notCreated | caught | exited => cases hrunning
  | snapshotting last | reporting last => cases last <;> simp [ReporterPhase.remaining]
  | testingStop | testingInternalStop => decide

/-- Once told to stop, a worker gets on with each step. -/
theorem WorkerPhase.Flows.remaining_lt {stop : Bool} {phase next : WorkerPhase}
    (hflows : WorkerPhase.Flows stop true phase next) : next.remaining < phase.remaining := by
  cases hflows with
  | testStop => cases stop <;> decide
  | throws phase hrunning => exact WorkerPhase.one_lt_remaining hrunning
  | skip last | consolidate last | merge last =>
    cases last <;> simp [WorkerPhase.remaining, WorkerPhase.afterFlush]
  | testInternalStop | collect | fill | handle => decide

/-- So does the reporter. -/
theorem ReporterPhase.Flows.remaining_lt {stop : Bool} {phase next : ReporterPhase}
    (hflows : ReporterPhase.Flows stop true phase next) : next.remaining < phase.remaining := by
  cases hflows with
  | testStop => cases stop <;> decide
  | throws phase hrunning => exact ReporterPhase.one_lt_remaining hrunning
  | snapshot last | report last =>
    cases last <;> simp [ReporterPhase.remaining, ReporterPhase.afterReport]
  | testInternalStop | handle => decide

/-- `run` has one step less to go, the threads it creates included. -/
theorem State.MainMove.remaining_lt {s next : State workersCount} {succeeds : Bool}
    (hmove : s.MainMove succeeds next) : next.remaining < s.remaining := by
  cases hmove with
  | createWorker workerId hmain =>
    have hsum := threads.sum_update_add WorkerPhase.remaining s.phases workerId .testingStop
    have hless := workerId.isLt
    unfold State.remaining
    rw [s.phases_createWorker, hmain]
    simp only [MainPhase.remaining, State.setWorker]
    simp only [WorkerPhase.remaining] at hsum ⊢
    omega
  | createReporter hmain =>
    simp only [State.remaining, State.phases, hmain, MainPhase.remaining, ReporterPhase.remaining]
    omega
  | workerFails workerId hmain | joinWorker _ workerId hmain =>
    have hless := workerId.isLt
    simp only [State.remaining, State.phases, hmain, MainPhase.remaining]
    omega
  | check succeeds hmain =>
    cases s.internalStop <;> simp [State.remaining, State.phases, hmain, MainPhase.remaining]
  | workersCreated _ _ hmain | handleWorker _ hmain | reporterFails hmain | handleReporter _ hmain
  | joinReporter _ _ hmain =>
    simp only [State.remaining, State.phases, hmain, MainPhase.remaining]
    omega

/-- Once `internalStop_` is set, every step of a thread is one less to go. -/
theorem State.remaining_of_move {s next : State workersCount} {action : Action workersCount}
    (hinternal : s.internalStop = true) (hmove : s.Move action next) :
    next.remaining < s.remaining ∨ action = .setStop ∧ next.remaining = s.remaining := by
  cases hmove with
  | setStop => exact .inr ⟨rfl, rfl⟩
  | main succeeds hmove => exact .inl hmove.remaining_lt
  | work workerId phase haction hthrows hmove =>
    left
    have hsum := threads.sum_update_add WorkerPhase.remaining s.phases workerId phase
    have hless := (hinternal ▸ hmove.flows).remaining_lt
    unfold State.remaining
    rw [hmove.phases, hmove.reporter, hmove.main]
    omega
  | report phase haction hthrows hmove =>
    left
    have hless := (hinternal ▸ hmove.flows).remaining_lt
    unfold State.remaining
    rw [hmove.phases, hmove.reporter, hmove.main]
    omega

/-- The flag stays set. -/
theorem State.internalStop_of_move {s next : State workersCount} {action : Action workersCount}
    (hinternal : s.internalStop = true) (hmove : s.Move action next) : next.internalStop = true := by
  cases hmove with
  | setStop => exact hinternal
  | main succeeds hmove => cases hmove <;> first | rfl | exact hinternal
  | work workerId phase haction hthrows hmove => rw [hmove.internalStop, hinternal, Bool.true_or]
  | report phase haction hthrows hmove => rw [hmove.internalStop, hinternal, Bool.true_or]

/-- A worker that `wait` would wait for has a step to take. -/
theorem State.exists_worker_proceeds {s : State workersCount} {workerId : Fin workersCount}
    (hrunning : (s.phases workerId).joined = false) : ∃ action : Action workersCount,
      action.proceeds = true ∧
        (metricsMachine workersCount eventBatchSize).step s action ≠ none := by
  cases hphase : (s.workers workerId).phase with
  | creating =>
    exact ⟨.createRandom workerId {}, rfl, by simp [metricsMachine, State.step, State.createRandom, hphase]⟩
  | notCreated | exited =>
    rw [State.phases, hphase] at hrunning
    cases hrunning
  | flushing last =>
    refine ⟨.workerStep workerId, rfl, ?_⟩
    cases hbatch : Event.consolidate (s.workers workerId).unreportedEvents <;>
      simp [metricsMachine, State.step, State.workerStep, hphase, hbatch]
  | testingStop | testingInternalStop | merging | caught =>
    exact ⟨.workerStep workerId, rfl, by simp [metricsMachine, State.step, State.workerStep, hphase]⟩

/-- A reporter that is not through can go on. -/
theorem State.reporter_proceeds {s : State workersCount} (hrunning : s.reporter.joined = false) :
    (metricsMachine workersCount eventBatchSize).step s .reporterStep ≠ none := by
  cases hphase : s.reporter with
  | notCreated | exited =>
    rw [hphase] at hrunning
    cases hrunning
  | testingStop | testingInternalStop | snapshotting | reporting | caught =>
    simp [metricsMachine, State.step, State.reporterStep, hphase]

/-- Nothing is left to be done only when `run` has been left. -/
theorem State.left_of_quiescent {s : State workersCount}
    (hrest : (metricsMachine workersCount eventBatchSize).Quiescent Action.proceeds s) :
    s.main.left = true := by
  have hmainStep : s.mainStep true = none := hrest (.mainStep true) rfl
  cases hmain : s.main with
  | returned | threw => rfl
  | joining index =>
    simp only [State.mainStep, hmain] at hmainStep
    by_cases hless : index < workersCount
    · rw [dif_pos hless, ite_eq_right_iff] at hmainStep
      have hrunning : (s.phases ⟨index, hless⟩).joined = false := by
        by_contra hjoined
        exact absurd (hmainStep (by simpa [State.phases] using hjoined)) (Option.some_ne_none _)
      obtain ⟨action, hproceeds, hstep⟩ := State.exists_worker_proceeds hrunning
      exact absurd (hrest action hproceeds) hstep
    · rw [dif_neg hless, ite_eq_right_iff] at hmainStep
      have hrunning : s.reporter.joined = false := by
        by_contra hjoined
        exact absurd (hmainStep (by simpa using hjoined)) (Option.some_ne_none _)
      exact absurd (hrest .reporterStep rfl) (State.reporter_proceeds hrunning)
  | creatingWorker index =>
    simp only [State.mainStep, hmain] at hmainStep
    split at hmainStep <;> cases hmainStep
  | workerCreationFailed | creatingReporter | reporterCreationFailed | checking =>
    simp [State.mainStep, hmain] at hmainStep

/-- The loop test that a thread is about to complete is its last. -/
structure State.LeavesLoops (eventBatchSize : Nat) (s : State workersCount) : Prop where
  worker : ∀ workerId next,
    (metricsMachine workersCount eventBatchSize).step s (.workerStep workerId) = some next →
    s.phases workerId = .testingInternalStop → next.phases workerId = .flushing true
  reporter : ∀ next, (metricsMachine workersCount eventBatchSize).step s .reporterStep = some next →
    s.reporter = .testingInternalStop → next.reporter = .snapshotting true

/-- With the flag set, all threads leave their loops. -/
theorem State.leavesLoops_of_internalStop (eventBatchSize : Nat) {s : State workersCount}
    (hinternal : s.internalStop = true) : s.LeavesLoops eventBatchSize := by
  constructor
  · intro workerId next hstep hphase
    change s.workerStep workerId = some next at hstep
    have hworker : (s.workers workerId).phase = .testingInternalStop := hphase
    simp only [State.workerStep, hworker, hinternal, if_true, Option.some.injEq] at hstep
    rw [← hstep, s.phases_setWorker, Function.update_self]
  · intro next hstep hphase
    change s.reporterStep = some next at hstep
    simp only [State.reporterStep, hphase, hinternal, Option.some.injEq] at hstep
    rw [← hstep]

/-- What holds from a state with `internalStop_` set on. -/
theorem State.after_internalStop {s last : State workersCount}
    {schedule : List (Action workersCount)}
    (hreach : (metricsMachine workersCount eventBatchSize).Reachable s)
    (hinternal : s.internalStop = true)
    (hrun : (metricsMachine workersCount eventBatchSize).run s schedule = some last) :
    last.internalStop = true ∧ last.LeavesLoops eventBatchSize ∧
      schedule.countP Action.proceeds ≤ s.remaining := by
  have htrap (s next : State workersCount) (a : Action workersCount)
      (hinternal : s.internalStop = true)
      (hstep : (metricsMachine workersCount eventBatchSize).step s a = some next) :
      next.internalStop = true :=
    State.internalStop_of_move hinternal (State.move_of_step hstep)
  have hlast := transition.Machine.Reachable.trapped (I := fun s => s.internalStop = true)
    (fun s a next _ => htrap s next a) hreach hinternal hrun
  have hset := transition.Machine.Reachable.runsBy_of_trapped (I := fun s => s.internalStop = true)
    (fun s a next _ => htrap s next a) hreach hinternal schedule
  refine ⟨hlast, State.leavesLoops_of_internalStop eventBatchSize hlast, ?_⟩
  have hbound := transition.Machine.Reachable.countP_le Action.proceeds State.remaining
    (fun s a next _ hinternal hproceeds hstep => ?_) (fun s a next _ hinternal _ hstep => ?_)
    hreach hset hrun
  · omega
  · obtain hless | ⟨rfl, _⟩ := State.remaining_of_move hinternal (State.move_of_step hstep)
    · exact hless
    · cases hproceeds
  · obtain hless | ⟨_, hsame⟩ := State.remaining_of_move hinternal (State.move_of_step hstep)
    · exact hless.le
    · exact hsame.le

end spdlogger.concurrent_metrics
