import Spdlogger.ConcurrentMetrics.Run

namespace spdlogger.concurrent_metrics

variable {workersCount eventBatchSize : Nat}

/-- How a worker goes from phase to phase, with the flags as it finds them. -/
inductive WorkerPhase.Flows (stop internalStop : Bool) : WorkerPhase → WorkerPhase → Prop where
  | testStop : Flows stop internalStop .testingStop
      (if stop then .flushing true else .testingInternalStop)
  | testInternalStop : Flows stop internalStop .testingInternalStop
      (if internalStop then .flushing true else .creating)
  | collect : Flows stop internalStop .creating .testingStop
  | fill : Flows stop internalStop .creating (.flushing false)
  | skip (last : Bool) : Flows stop internalStop (.flushing last) (.afterFlush last)
  | consolidate (last : Bool) (consolidatedEvent : Event) :
      Flows stop internalStop (.flushing last) (.merging last consolidatedEvent)
  | merge (last : Bool) (consolidatedEvent : Event) :
      Flows stop internalStop (.merging last consolidatedEvent) (.afterFlush last)
  | throws (phase : WorkerPhase) (hrunning : phase.running) :
      Flows stop internalStop phase .caught
  | handle : Flows stop internalStop .caught .exited

/-- The same for the reporter. -/
inductive ReporterPhase.Flows (stop internalStop : Bool) : ReporterPhase → ReporterPhase → Prop where
  | testStop : Flows stop internalStop .testingStop
      (if stop then .snapshotting true else .testingInternalStop)
  | testInternalStop : Flows stop internalStop .testingInternalStop (.snapshotting internalStop)
  | snapshot (last : Bool) (sharedData : Option Event) :
      Flows stop internalStop (.snapshotting last) (.reporting last sharedData)
  | report (last : Bool) (sharedDataCopy : Option Event) :
      Flows stop internalStop (.reporting last sharedDataCopy) (.afterReport last)
  | throws (phase : ReporterPhase) (hrunning : phase.running) :
      Flows stop internalStop phase .caught
  | handle : Flows stop internalStop .caught .exited

/-- Where the workers stand. -/
def State.phases (s : State workersCount) : Fin workersCount → WorkerPhase :=
  fun workerId => (s.workers workerId).phase

/-- Only one worker has moved. -/
theorem State.phases_setWorker (s : State workersCount) (workerId : Fin workersCount)
    (worker : Worker) :
    (s.setWorker workerId worker).phases = Function.update s.phases workerId worker.phase := by
  funext other
  by_cases hother : other = workerId
  · subst hother
    simp [State.phases, State.setWorker]
  · simp [State.phases, State.setWorker, hother]

/-- Only the new worker has moved. -/
theorem State.phases_createWorker (s : State workersCount) (workerId : Fin workersCount)
    (main : MainPhase) : State.phases
      { s.setWorker workerId { s.workers workerId with phase := .testingStop } with main } =
        Function.update s.phases workerId .testingStop :=
  s.phases_setWorker workerId _

/-- The worker that takes the step. -/
def Action.worker : Action workersCount → Option (Fin workersCount)
  | .createRandom workerId _ | .workerStep workerId | .workerThrows workerId => some workerId
  | _ => none

/-- What a step of a worker does, as far as the others can tell. -/
structure State.WorkerMove (s next : State workersCount) (workerId : Fin workersCount)
    (phase : WorkerPhase) : Prop where
  flows : WorkerPhase.Flows s.stop s.internalStop (s.phases workerId) phase
  phases : next.phases = Function.update s.phases workerId phase
  reporter : next.reporter = s.reporter
  main : next.main = s.main
  reports : next.reports = s.reports
  internalStop : next.internalStop = (s.internalStop || s.phases workerId = .caught)

/-- A step of the reporter, as far as the other threads see it. -/
structure State.ReporterMove (s next : State workersCount) (phase : ReporterPhase) : Prop where
  flows : ReporterPhase.Flows s.stop s.internalStop s.reporter phase
  phases : next.phases = s.phases
  reporter : next.reporter = phase
  main : next.main = s.main
  internalStop : next.internalStop = (s.internalStop || s.reporter = .caught)

/-- Everything that a step of `run` itself can do. -/
inductive State.MainMove (s : State workersCount) : Bool → State workersCount → Prop where
  | createWorker (workerId : Fin workersCount) (hmain : s.main = .creatingWorker workerId) :
      MainMove s true { s.setWorker workerId { s.workers workerId with phase := .testingStop } with
        main := .creatingWorker (workerId + 1) }
  | workerFails (workerId : Fin workersCount) (hmain : s.main = .creatingWorker workerId) :
      MainMove s false { s with main := .workerCreationFailed }
  | workersCreated (succeeds : Bool) (index : Nat) (hmain : s.main = .creatingWorker index)
      (hall : workersCount ≤ index) : MainMove s succeeds { s with main := .creatingReporter }
  | handleWorker (succeeds : Bool) (hmain : s.main = .workerCreationFailed) :
      MainMove s succeeds { s with internalStop := true, main := .creatingReporter }
  | createReporter (hmain : s.main = .creatingReporter) :
      MainMove s true { s with reporter := .testingStop, main := .joining 0 }
  | reporterFails (hmain : s.main = .creatingReporter) :
      MainMove s false { s with main := .reporterCreationFailed }
  | handleReporter (succeeds : Bool) (hmain : s.main = .reporterCreationFailed) :
      MainMove s succeeds { s with internalStop := true, main := .joining 0 }
  | joinWorker (succeeds : Bool) (workerId : Fin workersCount) (hmain : s.main = .joining workerId)
      (hjoined : (s.phases workerId).joined) :
      MainMove s succeeds { s with main := .joining (workerId + 1) }
  | joinReporter (succeeds : Bool) (index : Nat) (hmain : s.main = .joining index)
      (hall : workersCount ≤ index) (hjoined : s.reporter.joined) :
      MainMove s succeeds { s with main := .checking }
  | check (succeeds : Bool) (hmain : s.main = .checking) :
      MainMove s succeeds { s with main := if s.internalStop then .threw else .returned }

/-- Everything that a step can do to the phases of the threads and to `internalStop_`. -/
inductive State.Move (s : State workersCount) :
    Action workersCount → State workersCount → Prop where
  | setStop : Move s .setStop { s with stop := true }
  | main (succeeds : Bool) {next : State workersCount} (hmove : s.MainMove succeeds next) :
      Move s (.mainStep succeeds) next
  | work {action : Action workersCount} {next : State workersCount} (workerId : Fin workersCount)
      (phase : WorkerPhase) (haction : action.worker = some workerId)
      (hthrows : phase = .caught ↔ action = .workerThrows workerId)
      (hmove : s.WorkerMove next workerId phase) : Move s action next
  | report {action : Action workersCount} {next : State workersCount} (phase : ReporterPhase)
      (haction : action = .reporterStep ∨ action = .reporterThrows)
      (hthrows : phase = .caught ↔ action = .reporterThrows)
      (hmove : s.ReporterMove next phase) : Move s action next

theorem State.MainMove.of_mainStep {s next : State workersCount} {succeeds : Bool}
    (hstep : s.mainStep succeeds = some next) : s.MainMove succeeds next := by
  unfold State.mainStep at hstep
  cases hmain : s.main with
  | creatingWorker index =>
    simp only [hmain] at hstep
    by_cases hless : index < workersCount
    · rw [dif_pos hless] at hstep
      cases succeeds with
      | true =>
        cases hstep
        exact .createWorker ⟨index, hless⟩ hmain
      | false =>
        cases hstep
        exact .workerFails ⟨index, hless⟩ hmain
    · rw [dif_neg hless] at hstep
      cases hstep
      exact .workersCreated succeeds index hmain (Nat.not_lt.mp hless)
  | workerCreationFailed =>
    simp only [hmain, Option.some.injEq] at hstep
    exact hstep ▸ .handleWorker succeeds hmain
  | creatingReporter =>
    simp only [hmain] at hstep
    cases succeeds with
    | true =>
      cases hstep
      exact .createReporter hmain
    | false =>
      cases hstep
      exact .reporterFails hmain
  | reporterCreationFailed =>
    simp only [hmain, Option.some.injEq] at hstep
    exact hstep ▸ .handleReporter succeeds hmain
  | joining index =>
    simp only [hmain] at hstep
    by_cases hless : index < workersCount
    · rw [dif_pos hless, Option.ite_none_right_eq_some] at hstep
      obtain ⟨hjoined, hnext⟩ := hstep
      cases hnext
      exact .joinWorker succeeds ⟨index, hless⟩ hmain hjoined
    · rw [dif_neg hless, Option.ite_none_right_eq_some] at hstep
      obtain ⟨hjoined, hnext⟩ := hstep
      cases hnext
      exact .joinReporter succeeds index hmain (Nat.not_lt.mp hless) hjoined
  | checking =>
    simp only [hmain, Option.some.injEq] at hstep
    exact hstep ▸ .check succeeds hmain
  | returned | threw => simp [hmain] at hstep

/-- A step that replaces the record of one worker and leaves `internalStop_` alone. -/
theorem State.WorkerMove.of_setWorker {s next : State workersCount} {workerId : Fin workersCount}
    {phase : WorkerPhase} {worker : Worker} (hphase : (s.workers workerId).phase = phase)
    (hquiet : phase ≠ .caught)
    (hflows : WorkerPhase.Flows s.stop s.internalStop phase worker.phase)
    (hworkers : next.workers = (s.setWorker workerId worker).workers)
    (hreporter : next.reporter = s.reporter) (hmain : next.main = s.main)
    (hreports : next.reports = s.reports) (hinternal : next.internalStop = s.internalStop) :
    s.WorkerMove next workerId worker.phase := by
  subst hphase
  refine ⟨hflows, ?_, hreporter, hmain, hreports, ?_⟩
  · rw [← s.phases_setWorker]
    unfold State.phases
    rw [hworkers]
  · rw [hinternal, decide_eq_false (show s.phases workerId ≠ .caught from hquiet), Bool.or_false]

theorem State.WorkerMove.of_workerStep {s next : State workersCount} {workerId : Fin workersCount}
    (hstep : s.workerStep workerId = some next) :
    ∃ phase, phase ≠ .caught ∧ s.WorkerMove next workerId phase := by
  unfold State.workerStep at hstep
  cases hphase : (s.workers workerId).phase with
  | testingStop =>
    simp only [hphase, Option.some.injEq] at hstep
    subst hstep
    refine ⟨_, ?_, .of_setWorker hphase nofun .testStop rfl rfl rfl rfl rfl⟩
    cases s.stop <;> simp
  | testingInternalStop =>
    simp only [hphase, Option.some.injEq] at hstep
    subst hstep
    refine ⟨_, ?_, .of_setWorker hphase nofun .testInternalStop rfl rfl rfl rfl rfl⟩
    cases s.internalStop <;> simp
  | flushing last =>
    simp only [hphase] at hstep
    cases hbatch : Event.consolidate (s.workers workerId).unreportedEvents with
    | none =>
      simp only [hbatch, Option.some.injEq] at hstep
      subst hstep
      refine ⟨_, ?_, .of_setWorker hphase nofun (.skip last) rfl rfl rfl rfl rfl⟩
      cases last <;> simp [WorkerPhase.afterFlush]
    | some consolidatedEvent =>
      simp only [hbatch, Option.some.injEq] at hstep
      subst hstep
      refine ⟨_, ?_, .of_setWorker hphase nofun (.consolidate last consolidatedEvent)
        rfl rfl rfl rfl rfl⟩
      simp
  | merging last consolidatedEvent =>
    simp only [hphase, Option.some.injEq] at hstep
    subst hstep
    refine ⟨_, ?_, .of_setWorker hphase nofun (.merge last consolidatedEvent) rfl rfl rfl rfl rfl⟩
    cases last <;> simp [WorkerPhase.afterFlush]
  | caught =>
    simp only [hphase, Option.some.injEq] at hstep
    subst hstep
    have hcaught : s.phases workerId = .caught := hphase
    refine ⟨.exited, nofun, hcaught ▸ .handle, s.phases_setWorker _ _, rfl, rfl, rfl, ?_⟩
    rw [hcaught]
    exact (Bool.or_true _).symm
  | notCreated | creating | exited => simp [hphase] at hstep

/-- So is the creation of an event. -/
theorem State.WorkerMove.of_createRandom {s next : State workersCount}
    {workerId : Fin workersCount} {event : Event}
    (hstep : s.createRandom eventBatchSize workerId event = some next) :
    ∃ phase, phase ≠ .caught ∧ s.WorkerMove next workerId phase := by
  simp only [State.createRandom, Option.ite_none_right_eq_some, Option.some.injEq] at hstep
  obtain ⟨hphase, rfl⟩ := hstep
  refine ⟨_, ?_, .of_setWorker hphase nofun ?_ rfl rfl rfl rfl rfl⟩
  · dsimp only
    split <;> simp
  · dsimp only
    split
    · exact .fill
    · exact .collect

theorem State.ReporterMove.of_reporterStep {s next : State workersCount}
    (hstep : s.reporterStep = some next) :
    ∃ phase, phase ≠ .caught ∧ s.ReporterMove next phase := by
  unfold State.reporterStep at hstep
  cases hreporter : s.reporter with
  | testingStop =>
    simp only [hreporter, Option.some.injEq] at hstep
    subst hstep
    refine ⟨_, ?_, ?_, rfl, rfl, rfl, by simp [hreporter]⟩
    · cases s.stop <;> simp
    · exact hreporter ▸ .testStop
  | testingInternalStop =>
    simp only [hreporter, Option.some.injEq] at hstep
    subst hstep
    exact ⟨_, by simp, hreporter ▸ .testInternalStop, rfl, rfl, rfl, by simp [hreporter]⟩
  | snapshotting last =>
    simp only [hreporter, Option.some.injEq] at hstep
    subst hstep
    exact ⟨_, by simp, hreporter ▸ .snapshot last _, rfl, rfl, rfl, by simp [hreporter]⟩
  | reporting last sharedDataCopy =>
    simp only [hreporter, Option.some.injEq] at hstep
    subst hstep
    refine ⟨_, ?_, hreporter ▸ .report last sharedDataCopy, rfl, rfl, rfl, by simp [hreporter]⟩
    cases last <;> simp [ReporterPhase.afterReport]
  | caught =>
    simp only [hreporter, Option.some.injEq] at hstep
    subst hstep
    exact ⟨_, by simp, hreporter ▸ .handle, rfl, rfl, rfl, by simp [hreporter]⟩
  | notCreated | exited => simp [hreporter] at hstep

/-- Each step is one of the moves. -/
theorem State.move_of_step {s next : State workersCount} {action : Action workersCount}
    (hstep : (metricsMachine workersCount eventBatchSize).step s action = some next) :
    s.Move action next := by
  cases action with
  | setStop =>
    cases hstep
    exact .setStop
  | mainStep succeeds => exact .main succeeds (.of_mainStep hstep)
  | createRandom workerId event =>
    obtain ⟨phase, hphase, hmove⟩ := State.WorkerMove.of_createRandom hstep
    exact .work workerId phase rfl (by simp [hphase]) hmove
  | workerStep workerId =>
    obtain ⟨phase, hphase, hmove⟩ := State.WorkerMove.of_workerStep hstep
    exact .work workerId phase rfl (by simp [hphase]) hmove
  | workerThrows workerId =>
    simp only [metricsMachine, State.step, Option.ite_none_right_eq_some,
      Option.some.injEq] at hstep
    obtain ⟨hrunning, rfl⟩ := hstep
    have hphase : (s.workers workerId).phase ≠ .caught := by
      intro hcaught
      rw [hcaught] at hrunning
      cases hrunning
    exact .work workerId .caught rfl (by simp)
      (.of_setWorker rfl hphase (.throws _ hrunning) rfl rfl rfl rfl rfl)
  | reporterStep =>
    obtain ⟨phase, hphase, hmove⟩ := State.ReporterMove.of_reporterStep hstep
    exact .report phase (.inl rfl) (by simp [hphase]) hmove
  | reporterThrows =>
    simp only [metricsMachine, State.step, Option.ite_none_right_eq_some,
      Option.some.injEq] at hstep
    obtain ⟨hrunning, rfl⟩ := hstep
    have hphase : s.reporter ≠ .caught := by
      intro hcaught
      rw [hcaught] at hrunning
      cases hrunning
    exact .report .caught (.inr rfl) (by simp)
      ⟨.throws _ hrunning, rfl, rfl, rfl, by simp [hphase]⟩

end spdlogger.concurrent_metrics
