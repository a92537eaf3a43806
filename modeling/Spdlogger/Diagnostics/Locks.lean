import Spdlogger.Diagnostics.Step
import Spdlogger.Library.Mutex

namespace spdlogger.diagnostics

/-- Whether a thread is inside its critical section. -/
def State.inside (s : State) : Thread → Bool
  | .collector => s.collector.holds
  | .reporter => s.reporter.holds

/-- Both mutexes belong to the one thread inside its critical section. -/
structure State.Locked (s : State) : Prop where
  same : s.logBufferMutex = s.metricsMutex
  heldBy : mutex.HeldBy id s.inside s.metricsMutex

/-- The other thread is outside. -/
theorem State.Locked.outside {s : State} (h : s.Locked) {thread other : Thread}
    (hinside : s.inside thread = true) (hother : other ≠ thread) : s.inside other = false := by
  by_contra hboth
  exact hother (h.heldBy.unique (by simpa using hboth) hinside)

/-- A step that leaves the locks and who holds them alone keeps the locking discipline. -/
theorem State.Locked.frame {s next : State} (h : s.Locked)
    (hmetrics : next.metricsMutex = s.metricsMutex)
    (hlogBuffer : next.logBufferMutex = s.logBufferMutex)
    (hcollector : next.collector.holds = s.collector.holds)
    (hreporter : next.reporter.holds = s.reporter.holds) : next.Locked := by
  refine ⟨?_, ?_⟩
  · rw [hmetrics, hlogBuffer, h.same]
  · rw [hmetrics]
    refine h.heldBy.congr fun thread => ?_
    cases thread with
    | collector => exact hcollector
    | reporter => exact hreporter

/-- Taking both locks while they are free keeps the locking discipline. -/
theorem State.Locked.lock {s next : State} (h : s.Locked) (hfree : s.metricsMutex = none)
    {thread : Thread} (hmetrics : next.metricsMutex = some thread)
    (hlogBuffer : next.logBufferMutex = some thread)
    (hinside : next.inside = Function.update s.inside thread true) : next.Locked := by
  have hheld := h.heldBy
  rw [hfree] at hheld
  refine ⟨by rw [hmetrics, hlogBuffer], ?_⟩
  rw [hmetrics, hinside]
  exact hheld.lock rfl

/-- Releasing both locks from inside keeps the locking discipline. -/
theorem State.Locked.unlock {s next : State} (h : s.Locked) {thread : Thread}
    (hbefore : s.inside thread = true) (hmetrics : next.metricsMutex = none)
    (hlogBuffer : next.logBufferMutex = none)
    (hinside : next.inside = Function.update s.inside thread false) : next.Locked := by
  refine ⟨by rw [hmetrics, hlogBuffer], ?_⟩
  rw [hmetrics, hinside]
  exact h.heldBy.unlock hbefore rfl

/-- While the reporter stands still, only the collector can come inside or leave. -/
theorem State.inside_collector {s next : State} (hreporter : next.reporter = s.reporter) :
    next.inside = Function.update s.inside .collector next.collector.holds := by
  funext thread
  cases thread with
  | collector => rfl
  | reporter =>
    rw [Function.update_of_ne (by simp)]
    exact congrArg ReporterPhase.holds hreporter

/-- While the collector stands still, only the reporter can come inside or leave. -/
theorem State.inside_reporter {s next : State} (hcollector : next.collector = s.collector) :
    next.inside = Function.update s.inside .reporter next.reporter.holds := by
  funext thread
  cases thread with
  | reporter => rfl
  | collector =>
    rw [Function.update_of_ne (by simp)]
    exact congrArg CollectorPhase.holds hcollector

/-- A scoped lock is taken exactly when both mutexes are free. -/
theorem State.scopedLock_eq_some_iff {s next : State} {thread : Thread} :
    s.scopedLock thread = some next ↔ (s.metricsMutex = none ∧ s.logBufferMutex = none) ∧
      next = { s with metricsMutex := some thread, logBufferMutex := some thread } := by
  unfold State.scopedLock
  rw [Option.ite_none_right_eq_some, Option.some.injEq, eq_comm (b := next)]

/-- A step of the collector keeps the locking discipline. -/
theorem State.Locked.collectorStep {stress : Bool} {s next : State} (h : s.Locked)
    (hstep : s.collectorStep stress = some next) : next.Locked := by
  unfold State.collectorStep at hstep
  cases hphase : s.collector with
  | testing =>
    simp only [hphase, Option.some.injEq] at hstep
    subst hstep
    refine h.frame rfl rfl ?_ rfl
    rw [hphase]
    cases s.stop <;> rfl
  | fetching | writingIteration | writingRate | writingLabel =>
    simp only [hphase, Option.some.injEq] at hstep
    subst hstep
    refine h.frame rfl rfl ?_ rfl
    rw [hphase]
    rfl
  | locking i =>
    simp only [hphase, Option.map_eq_some_iff, State.scopedLock_eq_some_iff] at hstep
    obtain ⟨_, ⟨⟨hfree, _⟩, rfl⟩, rfl⟩ := hstep
    exact h.lock hfree rfl rfl (State.inside_collector rfl)
  | appending order index =>
    simp only [hphase] at hstep
    split at hstep
    · obtain ⟨value, _, rfl⟩ := Option.map_eq_some_iff.mp hstep
      refine h.frame rfl rfl ?_ rfl
      rw [hphase]
      rfl
    · cases hstep
      refine h.frame rfl rfl ?_ rfl
      rw [hphase]
      rfl
  | sleeping =>
    simp only [hphase, Option.some.injEq] at hstep
    subst hstep
    have hbefore : s.inside .collector = true := congrArg CollectorPhase.holds hphase
    exact h.unlock hbefore rfl rfl (State.inside_collector rfl)
  | iterating | exited => simp [hphase] at hstep

/-- A step of the reporter keeps the locking discipline. -/
theorem State.Locked.reporterStep {s next : State} (h : s.Locked)
    (hstep : s.reporterStep = some next) : next.Locked := by
  unfold State.reporterStep at hstep
  cases hphase : s.reporter with
  | testing =>
    simp only [hphase, Option.some.injEq] at hstep
    subst hstep
    refine h.frame rfl rfl rfl ?_
    rw [hphase]
    cases s.stop <;> rfl
  | locking =>
    simp only [hphase, Option.map_eq_some_iff, State.scopedLock_eq_some_iff] at hstep
    obtain ⟨_, ⟨⟨hfree, _⟩, rfl⟩, rfl⟩ := hstep
    exact h.lock hfree rfl rfl (State.inside_reporter rfl)
  | swapping | logging | sleeping =>
    simp only [hphase, Option.some.injEq] at hstep
    subst hstep
    refine h.frame rfl rfl rfl ?_
    rw [hphase]
    rfl
  | counting drainedBuffer =>
    simp only [hphase, Option.some.injEq] at hstep
    subst hstep
    have hbefore : s.inside .reporter = true := congrArg ReporterPhase.holds hphase
    exact h.unlock hbefore rfl rfl (State.inside_reporter rfl)
  | exited => simp [hphase] at hstep

/-- The locking discipline holds in every reachable state. -/
theorem State.locked_of_reachable {stress : Bool} {s : State}
    (hreach : (diagnosticsMachine stress).Reachable s) : s.Locked := by
  refine transition.Machine.ReachableBy.invariant (I := State.Locked) ?_ ?_ hreach
  · rintro s rfl
    refine ⟨rfl, fun thread => ?_⟩
    cases thread <;> simp [State.inside, CollectorPhase.holds, ReporterPhase.holds]
  · intro s action next _ h _ hstep
    cases action with
    | stop =>
      cases hstep
      exact h.frame rfl rfl rfl rfl
    | collectorStep => exact h.collectorStep hstep
    | iterate order =>
      simp only [diagnosticsMachine, State.step, Option.ite_none_right_eq_some,
        Option.some.injEq] at hstep
      obtain ⟨⟨hphase, _⟩, rfl⟩ := hstep
      refine h.frame rfl rfl ?_ rfl
      rw [hphase]
      rfl
    | reporterStep => exact h.reporterStep hstep

end spdlogger.diagnostics
