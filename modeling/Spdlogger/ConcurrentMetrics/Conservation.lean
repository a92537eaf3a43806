import Spdlogger.ConcurrentMetrics.Ledger
import Spdlogger.ConcurrentMetrics.Moves

namespace spdlogger.concurrent_metrics

variable {workersCount : Nat}

/-- A worker moves events on, and loses none. -/
theorem State.Conserves.workerStep {s next : State workersCount} (h : s.Conserves)
    {workerId : Fin workersCount} (hstep : s.workerStep workerId = some next) : next.Conserves := by
  have hcreated := h.created_eq workerId
  have hheld := h.consistent workerId
  unfold State.workerStep at hstep
  unfold Worker.Consistent at hheld
  cases hphase : (s.workers workerId).phase with
  | testingStop =>
    simp only [hphase, Option.some.injEq] at hstep hheld
    subst hstep
    refine h.setWorker (by simp [hphase]) ?_ hcreated
    cases s.stop <;> exact hheld
  | testingInternalStop =>
    simp only [hphase, Option.some.injEq] at hstep hheld
    subst hstep
    refine h.setWorker (by simp [hphase]) ?_ hcreated
    cases s.internalStop <;> exact hheld
  | flushing last =>
    simp only [hphase] at hstep hheld
    cases hconsolidate : Event.consolidate (s.workers workerId).unreportedEvents with
    | none =>
      simp only [hconsolidate, Option.some.injEq] at hstep
      subst hstep
      have hempty := Event.consolidate_eq_none.mp hconsolidate
      refine h.setWorker (by simp [hphase]) ?_ hcreated
      cases last <;> simp [Worker.Consistent, WorkerPhase.afterFlush, hheld, hempty]
    | some consolidatedEvent =>
      simp only [hconsolidate, Option.some.injEq] at hstep
      subst hstep
      refine h.setWorker (by simp [hphase]) ⟨hconsolidate, rfl⟩ ?_
      simpa [hheld] using hcreated
  | merging last consolidatedEvent =>
    simp only [hphase, Option.some.injEq] at hstep
    subst hstep
    exact h.merge hphase
  | caught =>
    simp only [hphase] at hheld
  | notCreated | creating | exited => simp [hphase] at hstep

/-- A new event is with its worker. -/
theorem State.Conserves.createRandom {eventBatchSize : Nat} {s next : State workersCount}
    (h : s.Conserves) {workerId : Fin workersCount} {event : Event}
    (hstep : s.createRandom eventBatchSize workerId event = some next) : next.Conserves := by
  simp only [State.createRandom, Option.ite_none_right_eq_some, Option.some.injEq] at hstep
  obtain ⟨hphase, rfl⟩ := hstep
  have hheld := h.consistent workerId
  simp only [Worker.Consistent, hphase] at hheld
  apply h.setWorker (by simp [hphase])
  · simp only [Worker.Consistent]
    by_cases hfull : ((s.workers workerId).unreportedEvents ++ [event]).length ≥ eventBatchSize
    · simpa only [if_pos hfull] using hheld
    · simpa only [if_neg hfull] using hheld
  · rw [h.created_eq workerId, List.append_assoc]

/-- `run` itself does not touch the events. -/
theorem State.Conserves.mainStep {s next : State workersCount} (h : s.Conserves) {succeeds : Bool}
    (hstep : s.mainStep succeeds = some next) : next.Conserves := by
  cases State.MainMove.of_mainStep hstep with
  | createWorker workerId hmain => exact h.createWorker hmain workerId.isLt
  | check succeeds hmain =>
    apply h.frame
    cases s.internalStop <;> nofun
  | workerFails | workersCreated | handleWorker | createReporter | reporterFails | handleReporter
  | joinWorker | joinReporter => exact h.frame nofun

/-- The reporter does not touch the events. -/
theorem State.Conserves.reporterStep {s next : State workersCount} (h : s.Conserves)
    (hstep : s.reporterStep = some next) : next.Conserves := by
  unfold State.reporterStep at hstep
  cases hreporter : s.reporter with
  | snapshotting last =>
    simp only [hreporter, Option.some.injEq] at hstep
    subst hstep
    refine ⟨h.uncreated, h.consistent, h.created_eq, h.sharedData_eq, ?_⟩
    intro snapshot hsnapshot
    rcases List.mem_append.mp hsnapshot with hearlier | hlatest
    · exact h.snapshots_eq snapshot hearlier
    · exact ⟨s.flushed, List.prefix_rfl, List.mem_singleton.mp hlatest ▸ h.sharedData_eq⟩
  | testingStop | testingInternalStop | reporting | caught =>
    simp only [hreporter, Option.some.injEq] at hstep
    subst hstep
    exact h.frame fun _ => id
  | notCreated | exited => simp [hreporter] at hstep

/-- No step without an exception loses an event or counts one twice. -/
theorem State.Conserves.step {eventBatchSize : Nat} {s next : State workersCount}
    (h : s.Conserves) {action : Action workersCount} (hquiet : action.ThrowsNothing)
    (hstep : s.step eventBatchSize action = some next) : next.Conserves := by
  cases action with
  | setStop =>
    simp only [State.step, Option.some.injEq] at hstep
    subst hstep
    exact h.frame fun _ => id
  | mainStep succeeds => exact h.mainStep hstep
  | createRandom workerId event => exact h.createRandom hstep
  | workerStep workerId => exact h.workerStep hstep
  | reporterStep => exact h.reporterStep hstep
  | workerThrows | reporterThrows => exact hquiet.elim

/-- The events are accounted for in every run without exceptions. -/
theorem State.conserves_of_reachable {eventBatchSize : Nat} {s : State workersCount}
    (hreach : (metricsMachine workersCount eventBatchSize).ReachableBy
      (fun _ action => action.ThrowsNothing) s) : s.Conserves := by
  refine transition.Machine.ReachableBy.invariant ?_ ?_ hreach
  · rintro s ⟨stop, rfl⟩
    refine ⟨fun _ _ _ _ => rfl, fun _ => ⟨rfl, rfl⟩, fun _ => rfl, rfl, nofun⟩
  · exact fun s action next _ hconserves hquiet hstep => hconserves.step hquiet hstep

end spdlogger.concurrent_metrics
