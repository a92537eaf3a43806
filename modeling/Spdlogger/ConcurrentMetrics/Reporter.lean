import Spdlogger.ConcurrentMetrics.Moves

namespace spdlogger.concurrent_metrics

variable {workersCount eventBatchSize : Nat}

/-- The reporter is created before `run` joins anything, or `run` is going to
throw; and `run` returns only after the reporter has. -/
structure State.AwaitsReporter (s : State workersCount) : Prop where
  joining : ∀ index, s.main = .joining index → s.internalStop = false → s.reporter ≠ .notCreated
  checking : s.main = .checking → s.internalStop = false → s.reporter = .exited
  returned : s.main = .returned → s.reporter = .exited

/-- Steps that leave `main` and the reporter alone, and never withdraw `internalStop_`. -/
theorem State.AwaitsReporter.frame {s next : State workersCount} (h : s.AwaitsReporter)
    (hmain : next.main = s.main) (hreporter : next.reporter = s.reporter)
    (hinternal : next.internalStop = false → s.internalStop = false) : next.AwaitsReporter := by
  refine ⟨?_, ?_, ?_⟩
  · rw [hmain, hreporter]
    exact fun index hindex hstop => h.joining index hindex (hinternal hstop)
  · rw [hmain, hreporter]
    exact fun hchecking hstop => h.checking hchecking (hinternal hstop)
  · rw [hmain, hreporter]
    exact h.returned

/-- The steps of `run` keep the reporter where it has to be. -/
theorem State.AwaitsReporter.main {s next : State workersCount} {succeeds : Bool}
    (h : s.AwaitsReporter) (hmove : s.MainMove succeeds next) : next.AwaitsReporter := by
  cases hmove with
  | createReporter => exact ⟨by simp, by simp, by simp⟩
  | handleReporter => exact ⟨by simp, by simp, by simp⟩
  | joinWorker succeeds workerId hmain =>
    exact ⟨fun _ _ => h.joining workerId hmain, by simp, by simp⟩
  | joinReporter succeeds index hmain hall hjoined =>
    refine ⟨by simp, fun _ hstop => ?_, by simp⟩
    simp only [ReporterPhase.joined, Bool.or_eq_true, decide_eq_true_eq] at hjoined
    exact hjoined.resolve_right (h.joining index hmain hstop)
  | check succeeds hmain =>
    have hexited := h.checking hmain
    cases hstop : s.internalStop with
    | true => exact ⟨by simp, by simp, by simp⟩
    | false => exact ⟨by simp, by simp, fun _ => hexited hstop⟩
  | createWorker | workerFails | workersCreated | handleWorker | reporterFails =>
    exact ⟨by simp, by simp, by simp⟩

/-- A reporter takes steps between its creation and its end. -/
theorem ReporterPhase.Flows.created {stop internalStop : Bool} {phase next : ReporterPhase}
    (hflows : ReporterPhase.Flows stop internalStop phase next) :
    phase ≠ .exited ∧ next ≠ .notCreated := by
  cases hflows with
  | testStop => cases stop <;> simp
  | report last => cases last <;> simp [ReporterPhase.afterReport]
  | throws phase hrunning =>
    refine ⟨?_, by simp⟩
    rintro rfl
    cases hrunning
  | testInternalStop | snapshot | handle => simp

/-- A running reporter stays in its thread until it exits. -/
theorem State.AwaitsReporter.report {s next : State workersCount} {phase : ReporterPhase}
    (h : s.AwaitsReporter) (hmove : s.ReporterMove next phase) : next.AwaitsReporter := by
  obtain ⟨hrunning, hcreated⟩ := hmove.flows.created
  have hinternal : next.internalStop = false → s.internalStop = false := by
    rw [hmove.internalStop]
    exact fun hstop => (Bool.or_eq_false_iff.mp hstop).1
  refine ⟨?_, ?_, ?_⟩
  · rw [hmove.reporter]
    exact fun _ _ _ => hcreated
  · rw [hmove.main]
    exact fun hchecking hstop => absurd (h.checking hchecking (hinternal hstop)) hrunning
  · rw [hmove.main]
    exact fun hreturned => absurd (h.returned hreturned) hrunning

/-- `run` waits for the reporter in every run. -/
theorem State.awaitsReporter_of_reachable {s : State workersCount}
    (hreach : (metricsMachine workersCount eventBatchSize).Reachable s) : s.AwaitsReporter := by
  refine transition.Machine.Reachable.invariant ?_ ?_ hreach
  · rintro s ⟨stop, rfl⟩
    exact ⟨by simp, by simp, by simp⟩
  · intro s action next h hstep
    cases State.move_of_step hstep with
    | setStop => exact h.frame rfl rfl id
    | main succeeds hmove => exact h.main hmove
    | work workerId phase haction hthrows hmove =>
      refine h.frame hmove.main hmove.reporter ?_
      rw [hmove.internalStop]
      exact fun hstop => (Bool.or_eq_false_iff.mp hstop).1
    | report phase haction hthrows hmove => exact h.report hmove

end spdlogger.concurrent_metrics
