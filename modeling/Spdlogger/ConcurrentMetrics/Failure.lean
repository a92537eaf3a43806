import Spdlogger.ConcurrentMetrics.Remaining

namespace spdlogger.concurrent_metrics

variable {workersCount eventBatchSize : Nat}

/-- Whether the step of `run` from here is the creation of a thread. -/
def MainPhase.creates (workersCount : Nat) : MainPhase → Bool
  | .creatingWorker index => index < workersCount
  | .creatingReporter => true
  | _ => false

/-- A thread cannot be created, or an exception leaves the `try` block of one. -/
def State.Fails (s : State workersCount) : Action workersCount → Prop
  | .mainStep succeeds => s.main.creates workersCount = true ∧ succeeds = false
  | .workerThrows _ | .reporterThrows => True
  | _ => False

/-- A handler has yet to store `internalStop_`. -/
def State.Handling (s : State workersCount) : Prop :=
  s.main = .workerCreationFailed ∨ s.main = .reporterCreationFailed ∨ s.reporter = .caught ∨
    ∃ workerId, s.phases workerId = .caught

/-- Something has failed: the flag is set, or a handler is about to set it. -/
def State.Failed (s : State workersCount) : Prop := s.internalStop = true ∨ s.Handling

/-- Failures are recorded, by a handler that has something to store. -/
theorem State.failed_work {s next : State workersCount} {action : Action workersCount}
    {workerId : Fin workersCount} {phase : WorkerPhase} (haction : action.worker = some workerId)
    (hthrows : phase = .caught ↔ action = .workerThrows workerId)
    (hmove : s.WorkerMove next workerId phase) : next.Failed ↔ s.Failed ∨ s.Fails action := by
  have hfails : s.Fails action ↔ phase = .caught := by
    rw [hthrows]
    cases action <;> simp_all [Action.worker, State.Fails]
  unfold State.Failed State.Handling
  rw [hfails, hmove.internalStop, hmove.main, hmove.reporter, hmove.phases]
  by_cases hbefore : s.phases workerId = .caught
  · have hhandling : ∃ other, s.phases other = .caught := ⟨workerId, hbefore⟩
    simp [hbefore, hhandling]
  · by_cases hafter : phase = .caught
    · have hhandling : ∃ other, Function.update s.phases workerId phase other = .caught :=
        ⟨workerId, by rw [Function.update_self, hafter]⟩
      simp only [hhandling, or_true, iff_true_intro hafter]
    · rw [threads.exists_update_iff hbefore hafter]
      simp [hbefore, hafter]

/-- A step of the reporter fails exactly if it throws. -/
theorem State.failed_report {s next : State workersCount} {action : Action workersCount}
    {phase : ReporterPhase} (haction : action = .reporterStep ∨ action = .reporterThrows)
    (hthrows : phase = .caught ↔ action = .reporterThrows) (hmove : s.ReporterMove next phase) :
    next.Failed ↔ s.Failed ∨ s.Fails action := by
  have hfails : s.Fails action ↔ phase = .caught := by
    rw [hthrows]
    obtain rfl | rfl := haction
    · simp [State.Fails]
    · simp [State.Fails]
  unfold State.Failed State.Handling
  rw [hfails, hmove.internalStop, hmove.main, hmove.reporter, hmove.phases]
  by_cases hbefore : s.reporter = .caught
  · simp [hbefore]
  · simp only [hbefore, decide_false, Bool.or_false]
    tauto

/-- A step of `run` fails exactly if the creation it makes does. -/
theorem State.JoinsAll.failed_main {s next : State workersCount} {succeeds : Bool}
    (h : s.JoinsAll) (hmove : s.MainMove succeeds next) :
    next.Failed ↔ s.Failed ∨ s.Fails (.mainStep succeeds) := by
  cases hmove with
  | createWorker workerId hmain =>
    have hfresh := h.fresh workerId hmain workerId le_rfl
    have hbefore : s.phases workerId ≠ .caught := by
      rw [hfresh]
      decide
    have hafter : WorkerPhase.testingStop ≠ .caught := by decide
    unfold State.Failed State.Handling
    rw [s.phases_createWorker, threads.exists_update_iff hbefore hafter]
    simp [State.setWorker, State.Fails, hmain]
  | createReporter hmain =>
    have hfresh := h.freshReporter (by rw [hmain]; rfl)
    simp [State.Failed, State.Handling, State.Fails, State.phases, hmain, hfresh]
  | check succeeds hmain =>
    cases hinternal : s.internalStop <;>
      simp [State.Failed, State.Handling, State.Fails, State.phases, hmain, hinternal,
        MainPhase.creates]
  | workersCreated succeeds index hmain hall =>
    simp [State.Failed, State.Handling, State.Fails, State.phases, hmain, MainPhase.creates, hall]
  | workerFails _ hmain | handleWorker _ hmain | reporterFails hmain | handleReporter _ hmain
  | joinWorker _ _ hmain | joinReporter _ _ hmain =>
    simp [State.Failed, State.Handling, State.Fails, State.phases, hmain, MainPhase.creates]

/-- A failure is there exactly from the first step that fails on. -/
theorem State.JoinsAll.failed_step {s next : State workersCount} {action : Action workersCount}
    (h : s.JoinsAll)
    (hstep : (metricsMachine workersCount eventBatchSize).step s action = some next) :
    next.Failed ↔ s.Failed ∨ s.Fails action := by
  cases State.move_of_step hstep with
  | setStop => simp [State.Failed, State.Handling, State.Fails, State.phases]
  | main succeeds hmove => exact h.failed_main hmove
  | work workerId phase haction hthrows hmove => exact State.failed_work haction hthrows hmove
  | report phase haction hthrows hmove => exact State.failed_report haction hthrows hmove

/-- A handler keeps `run` from being left. -/
theorem State.JoinsAll.failed_iff {s : State workersCount} (h : s.JoinsAll)
    (hleft : s.main.left) : s.Failed ↔ s.main = .threw := by
  obtain ⟨hwaited, hjoined⟩ := MainPhase.waited_of_left hleft
  have hhandling : ¬ s.Handling := by
    rintro (hmain | hmain | hcaught | ⟨workerId, hcaught⟩)
    · rw [hmain] at hleft
      cases hleft
    · rw [hmain] at hleft
      cases hleft
    · have hreporter := h.reporter hwaited
      rw [hcaught] at hreporter
      cases hreporter
    · have hworker := h.workers workerId (hjoined workerId)
      rw [hcaught] at hworker
      cases hworker
  rw [State.Failed, or_iff_left hhandling]
  refine ⟨fun hinternal => ?_, h.threw⟩
  cases hmain : s.main with
  | threw => rfl
  | returned =>
    rw [h.returned hmain] at hinternal
    cases hinternal
  | _ =>
    rw [hmain] at hleft
    cases hleft

/-- The thread that takes the step has a failure to handle. -/
def State.Handles (s : State workersCount) : Action workersCount → Prop
  | .setStop => False
  | .mainStep _ => s.main = .workerCreationFailed ∨ s.main = .reporterCreationFailed
  | .createRandom workerId _ | .workerStep workerId | .workerThrows workerId =>
    s.phases workerId = .caught
  | .reporterStep | .reporterThrows => s.reporter = .caught

/-- The next step of a handler is its store. -/
theorem State.internalStop_of_handles {s next : State workersCount}
    {action : Action workersCount} (hhandles : s.Handles action) (hmove : s.Move action next) :
    next.internalStop = true := by
  cases hmove with
  | setStop => cases hhandles
  | work workerId phase haction hthrows hmove =>
    have hcaught : s.phases workerId = .caught := by
      cases action <;> cases haction <;> exact hhandles
    rw [hmove.internalStop, hcaught]
    exact Bool.or_true _
  | report phase haction hthrows hmove =>
    have hcaught : s.reporter = .caught := by
      obtain rfl | rfl := haction <;> exact hhandles
    rw [hmove.internalStop, hcaught]
    exact Bool.or_true _
  | main succeeds hmove =>
    cases hmove with
    | handleWorker | handleReporter => rfl
    | createWorker _ hmain | workerFails _ hmain | workersCreated _ _ hmain | createReporter hmain
    | reporterFails hmain | joinWorker _ _ hmain | joinReporter _ _ hmain | check _ hmain =>
      simp [State.Handles, hmain] at hhandles

/-- A step that is no failure. -/
def State.Succeeds (s : State workersCount) (action : Action workersCount) : Prop :=
  ¬ s.Fails action

/-- `run` is left only when every thread it created is joined, by throwing if anything failed
and by returning otherwise. After a failure a handler is on its way until `internalStop_` is
set, and from then on no thread passes another loop test and only so many steps remain. A run
with no step left to take has left `run`. -/
theorem State.run_fails_cleanly {s last : State workersCount}
    {schedule : List (Action workersCount)}
    (hinit : (metricsMachine workersCount eventBatchSize).init s)
    (hrun : (metricsMachine workersCount eventBatchSize).run s schedule = some last) :
    (last.main.left = true → (∀ workerId, (last.phases workerId).joined) ∧ last.reporter.joined ∧
      (last.main = .threw ↔
        ¬ (metricsMachine workersCount eventBatchSize).RunsBy State.Succeeds s schedule)) ∧
    (¬ (metricsMachine workersCount eventBatchSize).RunsBy State.Succeeds s schedule →
      last.internalStop = true ∨ last.Handling) ∧
    (∀ action next, last.Handles action →
      (metricsMachine workersCount eventBatchSize).step last action = some next →
      next.internalStop = true) ∧
    (last.internalStop = true → ∀ rest final,
      (metricsMachine workersCount eventBatchSize).run last rest = some final →
      final.internalStop = true ∧ final.LeavesLoops eventBatchSize ∧
        rest.countP Action.proceeds ≤ last.remaining) ∧
    ((metricsMachine workersCount eventBatchSize).Quiescent Action.proceeds last →
      last.main.left = true) := by
  have hreach := transition.Machine.Reachable.run (.init hinit) hrun
  have hjoins := State.joinsAll hreach
  have hfresh : ¬ s.Failed := by
    obtain ⟨stop, rfl⟩ := hinit
    simp [State.Failed, State.Handling, State.phases]
  have hrecords (s : State workersCount) (action : Action workersCount) (next : State workersCount)
      (hs : (metricsMachine workersCount eventBatchSize).Reachable s)
      (hstep : (metricsMachine workersCount eventBatchSize).step s action = some next) :
      next.Failed ↔ s.Failed ∨ ¬ s.Succeeds action := by
    rw [(State.joinsAll hs).failed_step hstep, State.Succeeds, not_not]
  have hrecorded : last.Failed ↔
      ¬ (metricsMachine workersCount eventBatchSize).RunsBy State.Succeeds s schedule :=
    (transition.Machine.Reachable.recorded_iff hrecords (.init hinit) hrun).trans
      (or_iff_right hfresh)
  refine ⟨fun hleft => ⟨fun workerId => ?_, ?_, ?_⟩, hrecorded.mpr,
    fun action next hhandles hstep => ?_, fun hinternal rest final hrest => ?_,
    State.left_of_quiescent⟩
  · exact hjoins.workers workerId ((MainPhase.waited_of_left hleft).2 workerId)
  · exact hjoins.reporter (MainPhase.waited_of_left hleft).1
  · rw [← hjoins.failed_iff hleft, hrecorded]
  · exact State.internalStop_of_handles hhandles (State.move_of_step hstep)
  · exact State.after_internalStop hreach hinternal hrest

/-- The only worker throws, and the reporter cannot be created. -/
def failingRun : List (Action 1) :=
  [.mainStep true, .workerThrows 0, .mainStep true, .mainStep false, .mainStep true, .workerStep 0,
    .mainStep true, .mainStep true, .mainStep true]

/-- A worker throws, and everybody comes to be joined. -/
theorem run_fails_cleanly_failing_run : ∃ last : State 1,
    (metricsMachine 1 64).run {} failingRun = some last ∧ last.main = .threw ∧
    (∀ workerId, (last.phases workerId).joined) ∧
    ¬ (metricsMachine 1 64).RunsBy State.Succeeds {} failingRun := by
  have hrun : ((metricsMachine 1 64).run {} failingRun).any (fun s => s.main = .threw) = true := by
    decide
  obtain ⟨last, hlast, hcheck⟩ := (Option.any_eq_true _ _).mp hrun
  have hthrew : last.main = .threw := of_decide_eq_true hcheck
  obtain ⟨hleft, _⟩ := State.run_fails_cleanly (init_default 1 64) hlast
  obtain ⟨hworkers, _, hfailed⟩ := hleft (by rw [hthrew]; rfl)
  exact ⟨last, hlast, hthrew, hworkers, hfailed.mp hthrew⟩

/-- Between the exception and the store of its handler, another worker goes on. -/
theorem exists_loop_after_throw : ∃ failed last : State 2,
    (metricsMachine 2 64).run {} [.mainStep true, .mainStep true, .workerThrows 0] = some failed ∧
    ¬ (metricsMachine 2 64).RunsBy State.Succeeds {}
      [.mainStep true, .mainStep true, .workerThrows 0] ∧
    failed.phases 1 = .testingStop ∧
    (metricsMachine 2 64).run failed [.workerStep 1, .workerStep 1] = some last ∧
    last.phases 1 = .creating := by
  refine ⟨_, _, rfl, fun hsucceeds => ?_, rfl, rfl, rfl⟩
  obtain ⟨_, hafter⟩ := hsucceeds
  obtain ⟨_, hlast⟩ := hafter _ rfl
  obtain ⟨hthrow, _⟩ := hlast _ rfl
  exact hthrow trivial

end spdlogger.concurrent_metrics
