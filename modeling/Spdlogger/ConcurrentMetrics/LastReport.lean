import Spdlogger.ConcurrentMetrics.NoLoss
import Spdlogger.ConcurrentMetrics.Reporter

namespace spdlogger.concurrent_metrics

variable {workersCount eventBatchSize : Nat}

/-- A worker without an event that is still to be merged. -/
def Worker.HoldsNothing (worker : Worker) : Prop :=
  worker.unreportedEvents = [] ∧ worker.inFlight = []

/-- The reporter has taken the copy it logs after its loop. -/
def ReporterPhase.pastLastSnapshot : ReporterPhase → Bool
  | .reporting last _ => last
  | .exited => true
  | _ => false

/-- No worker holds an event when the reporter takes its last copy, and none
creates one after that. -/
def State.FlushesFirst (s : State workersCount) : Action workersCount → Prop
  | .reporterStep =>
    s.reporter = .snapshotting true → ∀ workerId, (s.workers workerId).HoldsNothing
  | .createRandom _ _ => s.reporter.pastLastSnapshot = false
  | _ => True

instance (worker : Worker) : Decidable worker.HoldsNothing := inferInstanceAs (Decidable (_ ∧ _))

instance (s : State workersCount) : DecidablePred s.FlushesFirst
  | .reporterStep => inferInstanceAs (Decidable (_ → _))
  | .createRandom _ _ => inferInstanceAs (Decidable (_ = false))
  | .setStop | .mainStep _ | .workerStep _ | .workerThrows _ | .reporterThrows => .isTrue trivial

instance : DecidablePred (@Action.ThrowsNothing workersCount)
  | .workerThrows _ | .reporterThrows => .isFalse id
  | .setStop | .mainStep _ | .workerStep _ | .createRandom _ _ | .reporterStep => .isTrue trivial

/-- After the last copy the shared data stays as it was copied. -/
structure State.Reported (s : State workersCount) : Prop where
  held : s.reporter.pastLastSnapshot → ∀ workerId, (s.workers workerId).HoldsNothing
  copied : ∀ sharedDataCopy, s.reporter = .reporting true sharedDataCopy →
    sharedDataCopy = s.sharedData
  logged : s.reporter = .exited → s.reports.getLast? = some s.sharedData
  quiet : s.reporter ≠ .caught

/-- A worker that moves leaves the others without events as they are. -/
theorem State.holdsNothing_setPhase {s : State workersCount} {workerId other : Fin workersCount}
    (phase : WorkerPhase) (hother : (s.workers other).HoldsNothing) :
    ((s.setWorker workerId { s.workers workerId with phase }).workers other).HoldsNothing := by
  by_cases hsame : other = workerId
  · subst hsame
    simp only [State.setWorker, Function.update_self]
    exact hother
  · simpa [State.setWorker, hsame] using hother

/-- A worker that holds nothing has nothing to merge. -/
theorem State.Conserves.workerStep_of_holdsNothing {s next : State workersCount} (h : s.Conserves)
    {workerId : Fin workersCount} (hholds : (s.workers workerId).HoldsNothing)
    (hstep : s.workerStep workerId = some next) :
    next.sharedData = s.sharedData ∧ ∀ other, (s.workers other).HoldsNothing →
      (next.workers other).HoldsNothing := by
  have hheld := h.consistent workerId
  unfold State.workerStep at hstep
  cases hphase : (s.workers workerId).phase with
  | testingStop | testingInternalStop =>
    simp only [hphase, Option.some.injEq] at hstep
    subst hstep
    exact ⟨rfl, fun _ => State.holdsNothing_setPhase _⟩
  | flushing last =>
    have hempty : Event.consolidate (s.workers workerId).unreportedEvents = none :=
      Event.consolidate_eq_none.mpr hholds.1
    simp only [hphase, hempty, Option.some.injEq] at hstep
    subst hstep
    exact ⟨rfl, fun _ => State.holdsNothing_setPhase _⟩
  | merging last consolidatedEvent =>
    simp only [Worker.Consistent, hphase] at hheld
    have hempty := Event.consolidate_eq_none.mpr hholds.2
    rw [hheld.1] at hempty
    cases hempty
  | caught =>
    simp only [Worker.Consistent, hphase] at hheld
  | notCreated | creating | exited => simp [hphase] at hstep

/-- Steps of `run` and of the environment. Creating a thread leaves the batches empty. -/
theorem State.Reported.frame {s next : State workersCount} (h : s.Reported)
    (hreporter : next.reporter = s.reporter) (hshared : next.sharedData = s.sharedData)
    (hreports : next.reports = s.reports)
    (hworkers : s.reporter.pastLastSnapshot → ∀ workerId, (s.workers workerId).HoldsNothing →
      (next.workers workerId).HoldsNothing) : next.Reported := by
  refine ⟨?_, ?_, ?_, hreporter ▸ h.quiet⟩
  · rw [hreporter]
    exact fun hpast workerId => hworkers hpast workerId (h.held hpast workerId)
  · rw [hreporter, hshared]
    exact h.copied
  · rw [hreporter, hshared, hreports]
    exact h.logged

/-- As long as the last copy is ahead there is nothing to maintain. -/
theorem State.Reported.of_ahead {s : State workersCount}
    (hahead : s.reporter.pastLastSnapshot = false) (hquiet : s.reporter ≠ .caught) :
    s.Reported := by
  refine ⟨by simp [hahead], ?_, ?_, hquiet⟩
  · intro sharedDataCopy hreporter
    rw [hreporter] at hahead
    cases hahead
  · intro hreporter
    rw [hreporter] at hahead
    cases hahead

/-- The joins of `run` leave the reports as they are. -/
theorem State.Reported.mainStep {s next : State workersCount} (h : s.Reported) {succeeds : Bool}
    (hstep : s.mainStep succeeds = some next) : next.Reported := by
  cases State.MainMove.of_mainStep hstep with
  | createWorker => exact h.frame rfl rfl rfl fun _ _ => State.holdsNothing_setPhase _
  | createReporter => exact State.Reported.of_ahead rfl (by simp)
  | workerFails | workersCreated | handleWorker | reporterFails | handleReporter | joinWorker
  | joinReporter | check => exact h.frame rfl rfl rfl fun _ _ => id

/-- The last copy is taken when everything is merged, and logged as it is. -/
theorem State.Reported.reporterStep {s next : State workersCount} (h : s.Reported)
    (hflushed : s.FlushesFirst .reporterStep) (hstep : s.reporterStep = some next) :
    next.Reported := by
  unfold State.reporterStep at hstep
  cases hreporter : s.reporter with
  | testingStop =>
    simp only [hreporter, Option.some.injEq] at hstep
    subst hstep
    apply State.Reported.of_ahead
    · cases s.stop <;> rfl
    · cases s.stop <;> simp
  | testingInternalStop =>
    simp only [hreporter, Option.some.injEq] at hstep
    subst hstep
    exact State.Reported.of_ahead rfl (by simp)
  | snapshotting last =>
    simp only [hreporter, Option.some.injEq] at hstep
    subst hstep
    cases last with
    | false => exact State.Reported.of_ahead rfl (by simp)
    | true => exact ⟨fun _ => hflushed hreporter, by simp, by simp, by simp⟩
  | reporting last sharedDataCopy =>
    simp only [hreporter, Option.some.injEq] at hstep
    subst hstep
    cases last with
    | false => exact State.Reported.of_ahead rfl (by simp [ReporterPhase.afterReport])
    | true =>
      have hheld := h.held (by rw [hreporter]; rfl)
      refine ⟨fun _ => hheld, by simp [ReporterPhase.afterReport], fun _ => ?_,
        by simp [ReporterPhase.afterReport]⟩
      rw [List.getLast?_concat, h.copied sharedDataCopy hreporter]
  | caught => exact absurd hreporter h.quiet
  | notCreated | exited => simp [hreporter] at hstep

/-- What is reported last is known at every point of such a run. -/
theorem State.reported_of_reachable {s : State workersCount}
    (hreach : (metricsMachine workersCount eventBatchSize).ReachableBy
      (fun s action => action.ThrowsNothing ∧ s.FlushesFirst action) s) : s.Reported := by
  refine transition.Machine.ReachableBy.invariant ?_ ?_ hreach
  · rintro s ⟨stop, rfl⟩
    exact State.Reported.of_ahead rfl (by simp)
  · rintro s action next hs h ⟨hquiet, hflushed⟩ hstep
    have hconserves := State.conserves_of_reachable (hs.mono fun _ _ hok => hok.1)
    cases action with
    | setStop =>
      cases hstep
      exact h.frame rfl rfl rfl fun _ _ => id
    | mainStep succeeds => exact h.mainStep hstep
    | createRandom workerId event =>
      have hahead : s.reporter.pastLastSnapshot = false := hflushed
      simp only [metricsMachine, State.step, State.createRandom, Option.ite_none_right_eq_some,
        Option.some.injEq] at hstep
      obtain ⟨_, rfl⟩ := hstep
      exact State.Reported.of_ahead hahead h.quiet
    | workerStep workerId =>
      obtain ⟨_, _, hmove⟩ := State.WorkerMove.of_workerStep hstep
      cases hpast : s.reporter.pastLastSnapshot with
      | false =>
        exact State.Reported.of_ahead (hmove.reporter ▸ hpast) (hmove.reporter ▸ h.quiet)
      | true =>
        obtain ⟨hshared, hholds⟩ := hconserves.workerStep_of_holdsNothing (h.held hpast workerId) hstep
        exact h.frame hmove.reporter hshared hmove.reports fun _ => hholds
    | reporterStep => exact h.reporterStep hflushed hstep
    | workerThrows | reporterThrows => exact hquiet.elim

/-- In every run in which no thread throws, the reporter takes its last copy only while no
worker holds an event, and none is created after that, the last report before `run` returns is
the final value of the shared data, which is the merge of all events created. -/
theorem State.last_report_complete {s : State workersCount}
    (hreach : (metricsMachine workersCount eventBatchSize).ReachableBy
      (fun s action => action.ThrowsNothing ∧ s.FlushesFirst action) s)
    (hreturned : s.main = .returned) :
    s.reports.getLast? = some s.sharedData ∧
      s.sharedData = sharedAfter (s.flushed.map Prod.snd) ∧ s.created = s.merged := by
  have hconserves := State.conserves_of_reachable (hreach.mono fun _ _ hok => hok.1)
  have hreported := State.reported_of_reachable hreach
  have hexited := (State.awaitsReporter_of_reachable hreach.reachable).returned hreturned
  have hheld := hreported.held (by rw [hexited]; rfl)
  refine ⟨hreported.logged hexited, hconserves.sharedData_eq, ?_⟩
  have hempty (workerId : Fin workersCount) :
      (s.workers workerId).inFlight = [] ∧ (s.workers workerId).unreportedEvents = [] :=
    ⟨(hheld workerId).2, (hheld workerId).1⟩
  rw [hconserves.created_eq_add]
  simp [State.inFlight, State.unreported, hempty]

/-- Two workers merge their batches before the reporter takes its last copy. -/
def flushedFirst : List (Action 3) :=
  [.mainStep true, .mainStep true, .mainStep true, .mainStep true, .mainStep true,
    .workerStep 0, .workerStep 0, .createRandom 0 { processedCount := 50 },
    .workerStep 1, .workerStep 1, .createRandom 1 { processedCount := 150 }, .setStop,
    .workerStep 0, .workerStep 0, .workerStep 0, .workerStep 1, .workerStep 1, .workerStep 1,
    .workerStep 2, .workerStep 2, .reporterStep, .reporterStep, .reporterStep,
    .mainStep true, .mainStep true, .mainStep true, .mainStep true, .mainStep true]

/-- All three workers have flushed before the reporter takes its last copy. -/
theorem last_report_complete_after_flush :
    ∃ s : State 3, (metricsMachine 3 64).ReachableBy
        (fun s action => action.ThrowsNothing ∧ s.FlushesFirst action) s ∧
      s.main = .returned ∧ s.sharedData.isSome ∧ s.reports.getLast? = some s.sharedData := by
  have hrun : ∃ s : State 3, (metricsMachine 3 64).ReachableBy
        (fun s action => action.ThrowsNothing ∧ s.FlushesFirst action) s ∧
      decide (s.main = .returned ∧ s.sharedData.isSome) = true :=
    transition.Machine.exists_reachableBy_of_runBy _ (init_default _ _) flushedFirst _
      (by decide +kernel)
  obtain ⟨s, hreach, hcheck⟩ := hrun
  obtain ⟨hreturned, hsome⟩ := of_decide_eq_true hcheck
  exact ⟨s, hreach, hreturned, hsome, (State.last_report_complete hreach hreturned).1⟩

/-- The stop flag reaches the reporter first, and its last report is that there
are no metrics yet. Then the worker merges its batch. -/
def reportedFirst : List (Action 3) :=
  [.mainStep true, .mainStep true, .mainStep true, .mainStep true, .mainStep true,
    .workerStep 0, .workerStep 0, .createRandom 0 { processedCount := 50 }, .setStop,
    .reporterStep, .reporterStep, .reporterStep,
    .workerStep 0, .workerStep 0, .workerStep 0, .workerStep 1, .workerStep 1,
    .workerStep 2, .workerStep 2,
    .mainStep true, .mainStep true, .mainStep true, .mainStep true, .mainStep true]

/-- A worker flushes after the reporter has taken its last copy. -/
theorem exists_incomplete_last_report :
    ∃ s : State 3, (metricsMachine 3 64).ReachableBy (fun _ action => action.ThrowsNothing) s ∧
      s.main = .returned ∧ s.sharedData.isSome ∧ s.reports.getLast? = some none := by
  have hrun : ∃ s : State 3,
      (metricsMachine 3 64).ReachableBy (fun _ action => action.ThrowsNothing) s ∧
      decide (s.main = .returned ∧ s.sharedData.isSome ∧ s.reports.getLast? = some none) = true :=
    transition.Machine.exists_reachableBy_of_run _ (init_default _ _) reportedFirst
      (by simp [reportedFirst, Action.ThrowsNothing]) _ (by decide +kernel)
  obtain ⟨s, hreach, hcheck⟩ := hrun
  exact ⟨s, hreach, of_decide_eq_true hcheck⟩

end spdlogger.concurrent_metrics
