import Spdlogger.ConcurrentMetrics.Joining
import Spdlogger.Diagnostics.Run
import Spdlogger.Level.Run
import Spdlogger.ProducerConsumerQueue.Leftover
import Spdlogger.ProducerConsumerQueue.Termination

namespace spdlogger

/-- The writer exits only after `stop`. -/
theorem level.State.stop_of_exited {s : level.State} (hreach : level.levelMachine.Reachable s)
    (hexited : s.writeThread = .exited) : s.stop = true := by
  refine transition.Machine.Reachable.invariant
    (I := fun s : level.State => s.writeThread = .exited → s.stop = true) ?_ ?_ hreach hexited
  · rintro s rfl hexited
    cases hexited
  · intro s action next h hstep hexited
    obtain ⟨hwriter, _, hstop⟩ := level.State.frame_of_step hstep
    cases action with
    | writeStep =>
      change s.writeStep = some next at hstep
      cases hphase : s.writeThread with
      | testing =>
        simp only [level.State.writeStep, hphase, Option.some.injEq] at hstep
        subst hstep
        simpa using hexited
      | adding | sleeping =>
        simp only [level.State.writeStep, hphase, Option.some.injEq] at hstep
        subst hstep
        cases hexited
      | exited => simp [level.State.writeStep, hphase] at hstep
    | stop => simpa [level.Action.side] using hstop
    | load | readStep =>
      rw [(hwriter (by simp [level.Action.side])).1] at hexited
      simp [hstop, h hexited]

/-- The collector exits only after `stop`. -/
theorem diagnostics.State.stop_of_exited {stress : Bool} {s : diagnostics.State}
    (hreach : (diagnostics.diagnosticsMachine stress).Reachable s) (hexited : s.collector = .exited) :
    s.stop = true := by
  refine transition.Machine.Reachable.invariant
    (I := fun s : diagnostics.State => s.collector = .exited → s.stop = true) ?_ ?_ hreach hexited
  · rintro s rfl hexited
    cases hexited
  · intro s action next h hstep hexited
    obtain ⟨hcollector, _, hstop⟩ := diagnostics.State.frame_of_step hstep
    cases action with
    | stop => simpa [diagnostics.Action.side] using hstop
    | reporterStep =>
      rw [(hcollector (by simp [diagnostics.Action.side])).1] at hexited
      simp [hstop, h hexited]
    | iterate order =>
      simp only [diagnostics.diagnosticsMachine, diagnostics.State.step, Option.ite_none_right_eq_some,
        Option.some.injEq] at hstep
      obtain ⟨_, rfl⟩ := hstep
      cases hexited
    | collectorStep =>
      change s.collectorStep stress = some next at hstep
      cases hphase : s.collector with
      | testing =>
        simp only [diagnostics.State.collectorStep, hphase, Option.some.injEq] at hstep
        subst hstep
        simpa using hexited
      | locking =>
        simp only [diagnostics.State.collectorStep, hphase, Option.map_eq_some_iff] at hstep
        obtain ⟨_, _, rfl⟩ := hstep
        cases hexited
      | appending order index =>
        simp only [diagnostics.State.collectorStep, hphase] at hstep
        split at hstep
        · obtain ⟨_, _, rfl⟩ := Option.map_eq_some_iff.mp hstep
          cases hexited
        · cases hstep
          cases hexited
      | iterating | exited => simp [diagnostics.State.collectorStep, hphase] at hstep
      | fetching | writingIteration | writingRate | writingLabel | sleeping =>
        simp only [diagnostics.State.collectorStep, hphase, Option.some.injEq] at hstep
        subst hstep
        cases hexited

section producer_consumer_queue

open producer_consumer_queue

/-- A consumer exits only after `stop`. -/
theorem producer_consumer_queue.State.stop_of_exited {producerCount consumerCount : Nat}
    {s : State producerCount consumerCount} (hreach : (queueMachine producerCount consumerCount).Reachable s)
    {consumerId : Fin consumerCount} (hexited : s.consumers consumerId = .exited) : s.stop = true := by
  refine transition.Machine.Reachable.invariant
    (I := fun s : State producerCount consumerCount =>
      s.consumers consumerId = .exited → s.stop = true) ?_ ?_ hreach hexited
  · rintro s ⟨stop, rfl⟩ hexited
    cases hexited
  · intro s action next h hstep hexited
    have hkeeps := fun hstop => State.stop_of_turn hstop (State.turn_of_step hstep)
    obtain hbefore | ⟨_, _, hstop, _⟩ := State.exited_of_step (State.move_of_step hstep) hexited
    · exact hkeeps (h hbefore)
    · exact hkeeps hstop

end producer_consumer_queue

section concurrent_metrics

open concurrent_metrics

variable {workersCount eventBatchSize : Nat}

/-- On the way out of the loop, or behind it. -/
def concurrent_metrics.ReporterPhase.leaves : ReporterPhase → Bool
  | .snapshotting last | .reporting last _ => last
  | .exited => true
  | _ => false

/-- The reporter leaves its loop for one of the flags, or for an exception. -/
theorem concurrent_metrics.ReporterPhase.Flows.leaves {stop internalStop : Bool}
    {phase next : ReporterPhase} (hflows : ReporterPhase.Flows stop internalStop phase next)
    (hleaves : next.leaves = true) :
    phase.leaves = true ∨ stop = true ∨ internalStop = true ∨ phase = .caught := by
  cases hflows with
  | testStop =>
    cases stop with
    | true => exact .inr (.inl rfl)
    | false => cases hleaves
  | testInternalStop => exact .inr (.inr (.inl hleaves))
  | snapshot last | report last =>
    cases last with
    | true => exact .inl rfl
    | false => cases hleaves
  | throws => cases hleaves
  | handle => exact .inr (.inr (.inr rfl))

/-- A reporter that steps is created. -/
theorem concurrent_metrics.ReporterPhase.Flows.ne_notCreated {stop internalStop : Bool}
    {phase next : ReporterPhase} (hflows : ReporterPhase.Flows stop internalStop phase next) :
    next ≠ .notCreated := by
  cases hflows with
  | testStop => cases stop <;> simp
  | report last => cases last <;> simp [ReporterPhase.afterReport]
  | _ => simp

theorem concurrent_metrics.State.stop_of_workerStep {s next : State workersCount}
    {workerId : Fin workersCount} (hstep : s.workerStep workerId = some next) : next.stop = s.stop := by
  cases hphase : (s.workers workerId).phase with
  | flushing last =>
    simp only [State.workerStep, hphase] at hstep
    split at hstep <;> cases hstep <;> rfl
  | notCreated | creating | exited => simp [State.workerStep, hphase] at hstep
  | testingStop | testingInternalStop | merging | caught =>
    simp only [State.workerStep, hphase, Option.some.injEq] at hstep
    exact hstep ▸ rfl

theorem concurrent_metrics.State.stop_of_reporterStep {s next : State workersCount}
    (hstep : s.reporterStep = some next) : next.stop = s.stop := by
  cases hphase : s.reporter with
  | notCreated | exited => simp [State.reporterStep, hphase] at hstep
  | testingStop | testingInternalStop | snapshotting | reporting | caught =>
    simp only [State.reporterStep, hphase, Option.some.injEq] at hstep
    exact hstep ▸ rfl

theorem concurrent_metrics.State.stop_of_step {s next : State workersCount}
    {action : Action workersCount} (hstop : s.stop = true)
    (hstep : (metricsMachine workersCount eventBatchSize).step s action = some next) :
    next.stop = true := by
  cases action with
  | setStop =>
    cases hstep
    rfl
  | mainStep succeeds =>
    cases State.MainMove.of_mainStep hstep <;> exact hstop
  | createRandom workerId event =>
    simp only [metricsMachine, State.step, State.createRandom, Option.ite_none_right_eq_some,
      Option.some.injEq] at hstep
    obtain ⟨_, rfl⟩ := hstep
    exact hstop
  | workerStep workerId => exact (State.stop_of_workerStep hstep).trans hstop
  | reporterStep => exact (State.stop_of_reporterStep hstep).trans hstop
  | workerThrows | reporterThrows =>
    simp only [metricsMachine, State.step, Option.ite_none_right_eq_some, Option.some.injEq] at hstep
    obtain ⟨_, rfl⟩ := hstep
    exact hstop

/-- The reporter is there from its creation on, and leaves its loop for a reason. -/
structure concurrent_metrics.State.HasReporter (s : State workersCount) : Prop where
  created : s.main.beforeReporter = false → s.reporter ≠ .notCreated ∨ s.internalStop = true
  leaves : s.reporter.leaves = true → s.stop = true ∨ s.internalStop = true

/-- Each step keeps the reporter with its reasons. -/
theorem concurrent_metrics.State.HasReporter.step {s next : State workersCount}
    {action : Action workersCount} (h : s.HasReporter)
    (hstep : (metricsMachine workersCount eventBatchSize).step s action = some next) :
    next.HasReporter := by
  have hstop := fun hstop => State.stop_of_step hstop hstep
  cases State.move_of_step hstep with
  | setStop => exact ⟨h.created, fun _ => .inl rfl⟩
  | main succeeds hmove =>
    obtain ⟨hcreated, hleaves⟩ := h
    cases hmove with
    | createWorker | workerFails | workersCreated | reporterFails =>
      exact ⟨by simp [MainPhase.beforeReporter], hleaves⟩
    | handleWorker | handleReporter => exact ⟨fun _ => .inr rfl, fun _ => .inr rfl⟩
    | createReporter => exact ⟨fun _ => .inl (by simp), by simp [ReporterPhase.leaves]⟩
    | joinWorker _ _ hmain | joinReporter _ _ hmain | check _ hmain =>
      rw [hmain] at hcreated
      exact ⟨fun _ => hcreated rfl, hleaves⟩
  | work workerId phase haction hthrows hmove =>
    have hkeeps : s.internalStop = true → next.internalStop = true := by
      intro hflag
      rw [hmove.internalStop, hflag, Bool.true_or]
    refine ⟨?_, ?_⟩
    · rw [hmove.main, hmove.reporter]
      exact fun hpast => (h.created hpast).imp_right hkeeps
    · rw [hmove.reporter]
      exact fun hleaves => (h.leaves hleaves).imp hstop hkeeps
  | report phase haction hthrows hmove =>
    have hkeeps : s.internalStop = true → next.internalStop = true := by
      intro hflag
      rw [hmove.internalStop, hflag, Bool.true_or]
    refine ⟨fun _ => .inl ?_, fun hleaves => ?_⟩
    · rw [hmove.reporter]
      exact hmove.flows.ne_notCreated
    · rw [hmove.reporter] at hleaves
      obtain hbefore | hset | hset | hcaught := hmove.flows.leaves hleaves
      · exact (h.leaves hbefore).imp hstop hkeeps
      · exact .inl (hstop hset)
      · exact .inr (hkeeps hset)
      · exact .inr (by rw [hmove.internalStop]; simp [hcaught])

/-- `run` returns only after `stop`. -/
theorem concurrent_metrics.State.stop_of_returned {s : State workersCount}
    (hreach : (metricsMachine workersCount eventBatchSize).Reachable s) (hreturned : s.main = .returned) :
    s.stop = true := by
  have hhas : s.HasReporter := by
    refine transition.Machine.Reachable.invariant (I := State.HasReporter) ?_ ?_ hreach
    · rintro s ⟨stop, rfl⟩
      exact ⟨by simp [MainPhase.beforeReporter], by simp [ReporterPhase.leaves]⟩
    · exact fun s action next h hstep => h.step hstep
  have hjoins := State.joinsAll hreach
  have hflag := hjoins.returned hreturned
  have hthere := (hhas.created (by simp [hreturned, MainPhase.beforeReporter])).resolve_right (by simp [hflag])
  have hjoined := hjoins.reporter (by simp [hreturned, MainPhase.waited])
  refine (hhas.leaves ?_).resolve_right (by simp [hflag])
  cases hphase : s.reporter with
  | exited => rfl
  | notCreated => exact absurd hphase hthere
  | _ => simp [hphase, ReporterPhase.joined] at hjoined

end concurrent_metrics

/-- Whatever the interleaving, none of the tests returns before it is told to stop: each comes
back from its joins only after a thread that has seen `stop`. What leaves earlier leaves by an
exception. -/
theorem tests_return_after_stop :
    (∀ s, level.bodies.runMachine.Reachable s → s.phase = .returned → s.threads.stop = true) ∧
    (∀ stress s, (diagnostics.bodies stress).runMachine.Reachable s → s.phase = .returned →
      s.threads.stop = true) ∧
    (∀ producerCount consumerCount (s : producer_consumer_queue.State producerCount consumerCount),
      (producer_consumer_queue.queueMachine producerCount consumerCount).Reachable s →
        0 < consumerCount → s.main = .returned → s.stop = true) ∧
    ∀ workersCount eventBatchSize (s : concurrent_metrics.State workersCount),
      (concurrent_metrics.metricsMachine workersCount eventBatchSize).Reachable s →
        s.main = .returned → s.stop = true := by
  refine ⟨fun s hreach hreturned => ?_, fun stress s hreach hreturned => ?_,
    fun producerCount consumerCount s hreach hsome hreturned => ?_,
    fun workersCount eventBatchSize s hreach hreturned =>
      concurrent_metrics.State.stop_of_returned hreach hreturned⟩
  · refine two_threads.Run.told_of_returned level.lawful_bodies (fun threads hthreads hexited => ?_)
      hreach hreturned
    exact level.State.stop_of_exited hthreads (by simpa [level.bodies, level.State.exited] using hexited)
  · refine two_threads.Run.told_of_returned diagnostics.lawful_bodies
      (fun threads hthreads hexited => ?_) hreach hreturned
    exact diagnostics.State.stop_of_exited hthreads
      (by simpa [diagnostics.bodies, diagnostics.State.exited] using hexited)
  · have hexited := producer_consumer_queue.State.joinsExited_of_reachable hreach ⟨0, hsome⟩
      (by rw [hreturned]; trivial)
    exact producer_consumer_queue.State.stop_of_exited hreach hexited

/-- Each of the four has something to do before it is told to stop. -/
theorem tests_return_after_stop_once :
    (∃ s, level.bodies.runMachine.Reachable s ∧ s.phase = .returned ∧ s.threads.stop = true) ∧
    (∃ s, (diagnostics.bodies true).runMachine.Reachable s ∧ s.phase = .returned ∧
      s.threads.stop = true) ∧
    (∃ s : producer_consumer_queue.State 2 2,
      (producer_consumer_queue.queueMachine 2 2).Reachable s ∧ s.main = .returned ∧
        s.stop = true) ∧
    ∃ s : concurrent_metrics.State 1, (concurrent_metrics.metricsMachine 1 64).Reachable s ∧
      s.main = .returned ∧ s.stop = true := by
  refine ⟨?_, ?_, ?_, ?_⟩
  · obtain ⟨s, hreach, hcheck⟩ := transition.Machine.exists_reachable_of_run
      (M := level.bodies.runMachine) (s := { threads := {} }) ⟨_, rfl, rfl⟩
      [.start, .start, .thread .writeStep, .thread .writeStep, .thread .stop, .thread .writeStep,
        .thread .writeStep, .thread .readStep, .join, .join, .finish]
      (fun s => s.phase = .returned) (by decide)
    have hreturned : s.phase = .returned := by simpa using hcheck
    exact ⟨s, hreach, hreturned, tests_return_after_stop.1 s hreach hreturned⟩
  · obtain ⟨s, hreach, hcheck⟩ := transition.Machine.exists_reachable_of_run
      (M := (diagnostics.bodies true).runMachine) (s := { threads := {} }) ⟨_, rfl, rfl⟩
      (.start :: .start :: (diagnostics.collectorRound ["rate", "label", "iteration"] ++
        [diagnostics.Action.stop, .collectorStep, .reporterStep]).map .thread ++ [.join, .join, .finish])
      (fun s => s.phase = .returned) (by decide +kernel)
    have hreturned : s.phase = .returned := by simpa using hcheck
    exact ⟨s, hreach, hreturned, tests_return_after_stop.2.1 true s hreach hreturned⟩
  · obtain ⟨s, hreach, hcheck⟩ := transition.Machine.exists_reachable_of_run
      (M := producer_consumer_queue.queueMachine 2 2) (s := {}) ⟨false, rfl⟩
      (List.replicate 6 (.mainStep true) ++
        [.producerStep 0 5, .producerStep 0 5, .notifyOne 0 none, .setStop, .producerStep 0 7,
          .producerStep 1 7, .consumerStep 0 7, .consumerStep 0 7, .consumerStep 1 8,
          .consumerStep 1 8] ++ List.replicate 5 (.mainStep true))
      (fun s => s.main = .returned) (by decide)
    have hreturned : s.main = .returned := by simpa using hcheck
    exact ⟨s, hreach, hreturned, tests_return_after_stop.2.2.1 2 2 s hreach (by decide) hreturned⟩
  · obtain ⟨s, hreach, hcheck⟩ := transition.Machine.exists_reachable_of_run
      (M := concurrent_metrics.metricsMachine 1 64) (s := {}) ⟨false, rfl⟩
      [.mainStep true, .mainStep true, .mainStep true, .setStop, .workerStep 0, .workerStep 0,
        .reporterStep, .reporterStep, .reporterStep, .mainStep true, .mainStep true, .mainStep true]
      (fun s => s.main = .returned) (by decide)
    have hreturned : s.main = .returned := by simpa using hcheck
    exact ⟨s, hreach, hreturned, tests_return_after_stop.2.2.2 1 64 s hreach hreturned⟩

end spdlogger
