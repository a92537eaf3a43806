import Mathlib.Algebra.BigOperators.Fin
import Spdlogger.ConcurrentMetrics.Conservation

namespace spdlogger.concurrent_metrics

variable {workersCount : Nat}

/-- Every event created so far, by any worker. -/
def State.created (s : State workersCount) : Multiset Event :=
  ∑ workerId, ((s.workers workerId).created : Multiset Event)

/-- The events behind consolidated events that still wait for the lock. -/
def State.inFlight (s : State workersCount) : Multiset Event :=
  ∑ workerId, ((s.workers workerId).inFlight : Multiset Event)

/-- The events in the workers' local batches. -/
def State.unreported (s : State workersCount) : Multiset Event :=
  ∑ workerId, ((s.workers workerId).unreportedEvents : Multiset Event)

/-- The events merged into the shared data so far. -/
def State.merged (s : State workersCount) : Multiset Event :=
  ((s.flushed.map Prod.snd).flatten : List Event)

/-- Every worker can be joined, or has never been created. -/
def State.WorkersExited (s : State workersCount) : Prop :=
  ∀ workerId, (s.workers workerId).phase.joined

/-- The two counts of the shared data. -/
def State.counts (s : State workersCount) : Option (UInt32 × UInt32) :=
  s.sharedData.map fun shared => (shared.processedCount, shared.failedCount)

/-- The average latency of the shared data, if there is any. -/
def State.averageLatencyUs (s : State workersCount) : Option ℚ :=
  s.sharedData.map Event.averageLatencyUs

/-- Events are merged, on their way or with their workers. -/
theorem State.Conserves.created_eq_add {s : State workersCount} (h : s.Conserves) :
    s.created = s.merged + s.inFlight + s.unreported := by
  unfold State.created State.merged State.inFlight State.unreported
  simp only [h.created_eq, ← Multiset.coe_add, Finset.sum_add_distrib, sum_flushedBy]

/-- Behind the last worker everything is merged. -/
theorem State.Conserves.created_eq_merged {s : State workersCount} (h : s.Conserves)
    (hexited : s.WorkersExited) : s.created = s.merged := by
  have hempty (workerId : Fin workersCount) :
      (s.workers workerId).inFlight = [] ∧ (s.workers workerId).unreportedEvents = [] := by
    have hheld := h.consistent workerId
    have hjoined := hexited workerId
    simp only [WorkerPhase.joined, Bool.or_eq_true, decide_eq_true_eq] at hjoined
    rcases hjoined with hphase | hphase <;> simpa only [Worker.Consistent, hphase] using hheld
  rw [h.created_eq_add]
  simp [State.inFlight, State.unreported, hempty]

/-- The shared data holds what was merged. -/
theorem State.Conserves.sharedHolds {s : State workersCount} (h : s.Conserves) :
    SharedHolds s.sharedData s.merged := by
  rw [h.sharedData_eq]
  exact sharedHolds_sharedAfter _

/-- Behind the last worker the shared data has the totals of all events, modulo 2^32. -/
theorem State.Conserves.sharedData_totals {s : State workersCount} (h : s.Conserves)
    (hexited : s.WorkersExited) :
    (s.sharedData = none ↔ s.created = 0) ∧
      ∀ shared, s.sharedData = some shared →
        shared.processedCount.toNat = processedTotal s.created % 2 ^ 32 ∧
        shared.failedCount.toNat = failedTotal s.created % 2 ^ 32 ∧
        (processedTotal s.created < 2 ^ 32 → shared.averageLatencyUs = meanLatency s.created) := by
  have hholds := h.sharedHolds
  rw [← h.created_eq_merged hexited] at hholds
  cases hshared : s.sharedData with
  | none =>
    rw [hshared] at hholds
    exact ⟨⟨fun _ => hholds, fun _ => rfl⟩, nofun⟩
  | some shared =>
    rw [hshared] at hholds
    refine ⟨⟨nofun, fun hzero => absurd hzero hholds.1⟩, ?_⟩
    rintro _ ⟨rfl⟩
    exact ⟨hholds.2.processed, hholds.2.failed, hholds.2.average_eq⟩

/-- Two finished runs that created the same events agree on the totals. -/
theorem State.Conserves.totals_unique {s other : State workersCount} (h : s.Conserves)
    (hother : other.Conserves) (hexited : s.WorkersExited) (hotherExited : other.WorkersExited)
    (hcreated : other.created = s.created) : other.counts = s.counts ∧
      (processedTotal s.created < 2 ^ 32 → other.averageLatencyUs = s.averageLatencyUs) := by
  obtain ⟨hnone, htotals⟩ := h.sharedData_totals hexited
  obtain ⟨hotherNone, hotherTotals⟩ := hother.sharedData_totals hotherExited
  rw [hcreated] at hotherNone hotherTotals
  unfold State.counts State.averageLatencyUs
  cases hshared : s.sharedData with
  | none => simp [hotherNone.mpr (hnone.mp hshared)]
  | some shared =>
    cases hotherShared : other.sharedData with
    | none => simp [hnone.mpr (hotherNone.mp hotherShared)] at hshared
    | some otherShared =>
      obtain ⟨hprocessed, hfailed, haverage⟩ := htotals shared hshared
      obtain ⟨hotherProcessed, hotherFailed, hotherAverage⟩ := hotherTotals otherShared hotherShared
      have hcounts : otherShared.processedCount = shared.processedCount ∧
          otherShared.failedCount = shared.failedCount :=
        ⟨UInt32.toNat.inj (hotherProcessed.trans hprocessed.symm),
          UInt32.toNat.inj (hotherFailed.trans hfailed.symm)⟩
      refine ⟨by simp [hcounts], fun hroom => ?_⟩
      simp [haverage hroom, hotherAverage hroom]

/-- At every point of a run in which no thread throws, the events created are those merged,
those of a consolidated batch on its way to the lock, and those in the local batches. Once the
workers are gone the shared data is the total of all of them, whatever the interleaving. -/
theorem State.created_conserved {eventBatchSize : Nat} {s : State workersCount}
    (hreach : (metricsMachine workersCount eventBatchSize).ReachableBy
      (fun _ action => action.ThrowsNothing) s) :
    s.created = s.merged + s.inFlight + s.unreported ∧
    (∀ snapshot ∈ s.snapshots, ∃ flushes, flushes <+: s.flushed ∧
      snapshot = sharedAfter (flushes.map Prod.snd)) ∧
    (s.WorkersExited →
      (s.sharedData = none ↔ s.created = 0) ∧
      (∀ shared, s.sharedData = some shared →
        shared.processedCount.toNat = processedTotal s.created % 2 ^ 32 ∧
        shared.failedCount.toNat = failedTotal s.created % 2 ^ 32 ∧
        (processedTotal s.created < 2 ^ 32 → shared.averageLatencyUs = meanLatency s.created)) ∧
      ∀ other : State workersCount,
        (metricsMachine workersCount eventBatchSize).ReachableBy
          (fun _ action => action.ThrowsNothing) other →
        other.WorkersExited → other.created = s.created → other.counts = s.counts ∧
          (processedTotal s.created < 2 ^ 32 → other.averageLatencyUs = s.averageLatencyUs)) := by
  have hconserves := State.conserves_of_reachable hreach
  refine ⟨hconserves.created_eq_add, hconserves.snapshots_eq, fun hexited => ?_⟩
  obtain ⟨hnone, htotals⟩ := hconserves.sharedData_totals hexited
  refine ⟨hnone, htotals, fun other hother hotherExited hcreated => ?_⟩
  exact hconserves.totals_unique (State.conserves_of_reachable hother) hexited hotherExited hcreated

/-- Two workers, each with one event in its batch when stop comes. -/
theorem created_conserved_two_workers :
    ∃ s : State 2, (metricsMachine 2 64).ReachableBy (fun _ action => action.ThrowsNothing) s ∧
      s.WorkersExited ∧
      s.created = {{ processedCount := 50, averageLatencyUs := 100 },
        { processedCount := 150, averageLatencyUs := 300 }} ∧
      s.averageLatencyUs = some (meanLatency s.created) := by
  have hrun : ∃ s : State 2,
      (metricsMachine 2 64).ReachableBy (fun _ action => action.ThrowsNothing) s ∧
        decide ((∀ workerId, (s.workers workerId).phase.joined) ∧
          (s.workers 0).created = [{ processedCount := 50, averageLatencyUs := 100 }] ∧
          (s.workers 1).created = [{ processedCount := 150, averageLatencyUs := 300 }] ∧
          s.sharedData.isSome) = true :=
    transition.Machine.exists_reachableBy_of_run _ (init_default _ _)
      [.mainStep true, .mainStep true, .workerStep 0, .workerStep 1, .workerStep 0, .workerStep 1,
        .createRandom 0 { processedCount := 50, averageLatencyUs := 100 },
        .createRandom 1 { processedCount := 150, averageLatencyUs := 300 }, .setStop,
        .workerStep 0, .workerStep 1, .workerStep 0, .workerStep 1, .workerStep 1, .workerStep 0]
      (by simp [Action.ThrowsNothing]) _ (by decide +kernel)
  obtain ⟨s, hreach, hcheck⟩ := hrun
  obtain ⟨hexited, hfirst, hsecond, hsome⟩ := of_decide_eq_true hcheck
  obtain ⟨shared, hshared⟩ := Option.isSome_iff_exists.mp hsome
  have hcreated : s.created = {{ processedCount := 50, averageLatencyUs := 100 },
      { processedCount := 150, averageLatencyUs := 300 }} := by
    simp only [State.created, Fin.sum_univ_two, hfirst, hsecond, Multiset.coe_singleton]
    rfl
  have hroom : processedTotal s.created < 2 ^ 32 := by
    rw [hcreated]
    decide
  have haverage := ((s.created_conserved hreach).2.2 hexited).2.1 shared hshared
  exact ⟨s, hreach, hexited, hcreated, by simp [State.averageLatencyUs, hshared, haverage.2.2 hroom]⟩

/-- Between the consolidation of a batch and its merge, its events are in
neither of the two places. -/
theorem exists_event_in_flight :
    ∃ s : State 1, (metricsMachine 1 1).ReachableBy (fun _ action => action.ThrowsNothing) s ∧
      s.created ≠ s.merged + s.unreported := by
  have hrun : ∃ s : State 1,
      (metricsMachine 1 1).ReachableBy (fun _ action => action.ThrowsNothing) s ∧
        decide ((s.workers 0).created.length = 1 ∧ (s.workers 0).unreportedEvents = [] ∧
          s.flushed = []) = true :=
    transition.Machine.exists_reachableBy_of_run _ (init_default _ _)
      [.mainStep true, .workerStep 0, .workerStep 0, .createRandom 0 { processedCount := 50 },
        .workerStep 0]
      (by simp [Action.ThrowsNothing]) _ (by decide +kernel)
  obtain ⟨s, hreach, hcheck⟩ := hrun
  obtain ⟨hcreated, hunreported, hflushed⟩ := of_decide_eq_true hcheck
  refine ⟨s, hreach, fun hpartition => ?_⟩
  have hcard := congrArg Multiset.card hpartition
  simp [State.created, State.merged, State.unreported, hcreated, hunreported, hflushed] at hcard

end spdlogger.concurrent_metrics
