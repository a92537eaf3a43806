import Spdlogger.ConcurrentMetrics.Moves

namespace spdlogger.concurrent_metrics

variable {workersCount eventBatchSize : Nat}

/-- `wait` is through with the worker of this index. -/
def MainPhase.hasJoined (index : Nat) : MainPhase → Bool
  | .joining next => index < next
  | .checking | .returned | .threw => true
  | _ => false

/-- `wait` is back. -/
def MainPhase.waited : MainPhase → Bool
  | .checking | .returned | .threw => true
  | _ => false

/-- `run` has been left. -/
def MainPhase.left : MainPhase → Bool
  | .returned | .threw => true
  | _ => false

/-- `run` is left only behind its last join. -/
theorem MainPhase.waited_of_left {main : MainPhase} (hleft : main.left) :
    main.waited = true ∧ ∀ index, main.hasJoined index = true := by
  cases main with
  | returned | threw => exact ⟨rfl, fun _ => rfl⟩
  | _ => cases hleft

/-- A worker that can be joined takes no step. -/
theorem WorkerPhase.Flows.not_joined {stop internalStop : Bool} {phase next : WorkerPhase}
    (hflows : WorkerPhase.Flows stop internalStop phase next) : phase.joined = false := by
  cases hflows with
  | throws phase hrunning =>
    cases phase with
    | notCreated | caught | exited => cases hrunning
    | _ => rfl
  | testStop | testInternalStop | collect | fill | skip | consolidate | merge | handle => rfl

/-- A reporter that can be joined takes no step. -/
theorem ReporterPhase.Flows.not_joined {stop internalStop : Bool} {phase next : ReporterPhase}
    (hflows : ReporterPhase.Flows stop internalStop phase next) : phase.joined = false := by
  cases hflows with
  | throws phase hrunning =>
    cases phase with
    | notCreated | caught | exited => cases hrunning
    | _ => rfl
  | testStop | testInternalStop | snapshot | report | handle => rfl

/-- The step of a worker leaves those that can be joined as they are. -/
theorem State.WorkerMove.phases_eq {s next : State workersCount} {workerId other : Fin workersCount}
    {phase : WorkerPhase} (h : s.WorkerMove next workerId phase)
    (hjoined : (s.phases other).joined) : next.phases other = s.phases other := by
  have hother : other ≠ workerId := by
    rintro rfl
    rw [h.flows.not_joined] at hjoined
    cases hjoined
  rw [h.phases, Function.update_of_ne hother]

/-- `run` has yet to get past the creation of the reporter. -/
def MainPhase.beforeReporter : MainPhase → Bool
  | .creatingWorker _ | .workerCreationFailed | .creatingReporter | .reporterCreationFailed => true
  | _ => false

/-- What is created later is not there, what `wait` is through with is joined, and `run`
is left as `internalStop_` says. -/
structure State.JoinsAll (s : State workersCount) : Prop where
  fresh : ∀ index, s.main = .creatingWorker index → ∀ workerId : Fin workersCount,
    index ≤ workerId → s.phases workerId = .notCreated
  freshReporter : s.main.beforeReporter → s.reporter = .notCreated
  workers : ∀ workerId : Fin workersCount, s.main.hasJoined workerId →
    (s.phases workerId).joined
  reporter : s.main.waited → s.reporter.joined
  threw : s.main = .threw → s.internalStop = true
  returned : s.main = .returned → s.internalStop = false

/-- A worker that has been joined stays so while others go on. -/
theorem State.JoinsAll.work {s next : State workersCount} (h : s.JoinsAll)
    {workerId : Fin workersCount} {phase : WorkerPhase} (hmove : s.WorkerMove next workerId phase) :
    next.JoinsAll := by
  refine ⟨?_, ?_, ?_, ?_, ?_, ?_⟩
  · intro index hmain other hlater
    have hfresh := h.fresh index (hmove.main ▸ hmain) other hlater
    rw [hmove.phases_eq (by rw [hfresh]; rfl), hfresh]
  · rw [hmove.main, hmove.reporter]
    exact h.freshReporter
  · rw [hmove.main]
    intro other hjoined
    rw [hmove.phases_eq (h.workers other hjoined)]
    exact h.workers other hjoined
  · rw [hmove.main, hmove.reporter]
    exact h.reporter
  · rw [hmove.main, hmove.internalStop]
    intro hmain
    rw [h.threw hmain, Bool.true_or]
  · rw [hmove.main]
    intro hmain
    have hjoined := h.workers workerId (by rw [hmain]; rfl)
    rw [hmove.flows.not_joined] at hjoined
    cases hjoined

/-- The joined workers stay so while the reporter goes on. -/
theorem State.JoinsAll.report {s next : State workersCount} (h : s.JoinsAll)
    {phase : ReporterPhase} (hmove : s.ReporterMove next phase) : next.JoinsAll := by
  have hrunning := hmove.flows.not_joined
  refine ⟨?_, ?_, ?_, ?_, ?_, ?_⟩
  · rw [hmove.main, hmove.phases]
    exact h.fresh
  · rw [hmove.main]
    intro hbefore
    rw [h.freshReporter hbefore] at hrunning
    cases hrunning
  · rw [hmove.main, hmove.phases]
    exact h.workers
  · rw [hmove.main]
    intro hwaited
    rw [h.reporter hwaited] at hrunning
    cases hrunning
  · rw [hmove.main, hmove.internalStop]
    intro hmain
    rw [h.threw hmain, Bool.true_or]
  · rw [hmove.main]
    intro hmain
    have hjoined := h.reporter (by rw [hmain]; rfl)
    rw [hrunning] at hjoined
    cases hjoined

/-- `run` creates what is not there yet, and passes only what is joined. -/
theorem State.JoinsAll.main {s next : State workersCount} {succeeds : Bool} (h : s.JoinsAll)
    (hmove : s.MainMove succeeds next) : next.JoinsAll := by
  cases hmove with
  | createWorker workerId hmain =>
    refine ⟨fun index hindex other hlater => ?_, fun _ => ?_, nofun, nofun, nofun, nofun⟩
    · cases hindex
      have hother : other ≠ workerId := by
        rintro rfl
        omega
      rw [s.phases_createWorker, Function.update_of_ne hother]
      exact h.fresh workerId hmain other (by omega)
    · exact h.freshReporter (by rw [hmain]; rfl)
  | workerFails _ hmain | workersCreated _ _ hmain | handleWorker _ hmain | reporterFails hmain =>
    exact ⟨nofun, fun _ => h.freshReporter (by rw [hmain]; rfl), nofun, nofun, nofun, nofun⟩
  | createReporter | handleReporter => exact ⟨nofun, nofun, nofun, nofun, nofun, nofun⟩
  | joinWorker succeeds workerId hmain hjoined =>
    refine ⟨nofun, nofun, fun other hother => ?_, nofun, nofun, nofun⟩
    obtain hless | hlast := Nat.lt_succ_iff_lt_or_eq.mp (of_decide_eq_true hother)
    · exact h.workers other (by rw [hmain]; exact decide_eq_true hless)
    · exact Fin.ext hlast ▸ hjoined
  | joinReporter succeeds index hmain hall hjoined =>
    refine ⟨nofun, nofun, fun other _ => ?_, fun _ => hjoined, nofun, nofun⟩
    have hless := other.isLt
    exact h.workers other (by rw [hmain]; exact decide_eq_true (by omega))
  | check succeeds hmain =>
    have hworkers (other : Fin workersCount) : (s.phases other).joined :=
      h.workers other (by rw [hmain]; rfl)
    have hreporter := h.reporter (by rw [hmain]; rfl)
    refine ⟨?_, ?_, fun other _ => hworkers other, fun _ => hreporter, fun hthrew => ?_,
      fun hreturned => ?_⟩
    · cases s.internalStop <;> simp
    · cases s.internalStop <;> simp [MainPhase.beforeReporter]
    · simpa using hthrew
    · simpa using hreturned

/-- Each step keeps what has been joined joined. -/
theorem State.JoinsAll.step {s next : State workersCount} {action : Action workersCount}
    (h : s.JoinsAll)
    (hstep : (metricsMachine workersCount eventBatchSize).step s action = some next) :
    next.JoinsAll := by
  cases State.move_of_step hstep with
  | setStop => exact ⟨h.fresh, h.freshReporter, h.workers, h.reporter, h.threw, h.returned⟩
  | main succeeds hmove => exact h.main hmove
  | work workerId phase haction hthrows hmove => exact h.work hmove
  | report phase haction hthrows hmove => exact h.report hmove

/-- What `run` has joined has exited, at any time. -/
theorem State.joinsAll {s : State workersCount}
    (hreach : (metricsMachine workersCount eventBatchSize).Reachable s) : s.JoinsAll := by
  refine transition.Machine.Reachable.invariant (I := State.JoinsAll) ?_ ?_ hreach
  · rintro s ⟨stop, rfl⟩
    exact ⟨fun _ _ _ _ => rfl, fun _ => rfl, nofun, nofun, nofun, nofun⟩
  · exact fun s a next h hstep => h.step hstep

end spdlogger.concurrent_metrics
