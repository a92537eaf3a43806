import Spdlogger.Main.Step
import Spdlogger.ThreadPool.InsideMoves

namespace spdlogger.main

variable {workers : Nat}

/-- Some task of the pool is queued, running or not yet through. -/
def Pool.Unfinished : Pool workers → Prop
  | .bounded pool => pool.queuedTasks ≠ [] ∨ ∃ worker, (pool.workers worker).held ≠ 0
  | .unlimited pool => ∃ thread ∈ pool.workerThreads, thread.phase ≠ .finished

instance : DecidablePred fun pool : Pool workers => pool.Unfinished
  | .bounded pool =>
    inferInstanceAs (Decidable (pool.queuedTasks ≠ [] ∨ ∃ worker, (pool.workers worker).held ≠ 0))
  | .unlimited pool =>
    inferInstanceAs (Decidable (∃ thread ∈ pool.workerThreads, thread.phase ≠ .finished))

/-- The main thread is inside `wait` or `~ThreadPool`. -/
def Phase.joins : Phase → Bool
  | .waiting | .destroying _ => true
  | _ => false

/-- The pool of `main` has a task that is not through. -/
def State.HasUnfinished (s : State workers) : Prop :=
  ∃ pool, s.testThreadPool = some pool ∧ pool.Unfinished

/-- The main thread is waiting for a task. -/
def State.Blocked (s : State workers) : Prop := s.phase.joins ∧ s.HasUnfinished

/-- No task submitted earlier is unfinished when a `submit` throws. -/
def QuietThrow (s : State workers) : Action workers → Prop
  | .submitThrows _ => ¬ s.HasUnfinished
  | _ => True

/-- A pool without an unfinished task is emptied. -/
theorem Pool.unfinished_bounded_iff {pool : thread_pool.State workers Unit Nat Empty} :
    ¬ (Pool.bounded pool).Unfinished ↔ pool.Emptied := by
  simp only [Pool.Unfinished, not_or, not_not, not_exists]
  exact ⟨fun h => ⟨h.1, h.2⟩, fun h => ⟨h.queue, h.held⟩⟩

/-- A pool in which every task is through stays so until the next submission. -/
theorem Pool.finished_step {pool next : Pool workers} {action : PoolAction workers}
    (h : ¬ pool.Unfinished) (hstep : pool.step action = some next) : ¬ next.Unfinished := by
  unfold Pool.step at hstep
  rw [Option.ite_none_right_eq_some] at hstep
  obtain ⟨hinternal, hstep⟩ := hstep
  cases pool with
  | bounded pool =>
    cases action with
    | bounded action =>
      obtain ⟨last, hlast, rfl⟩ := Option.map_eq_some_iff.mp hstep
      rw [Pool.unfinished_bounded_iff] at h ⊢
      refine h.step ?_ hlast
      rintro client function rfl
      cases hinternal
    | unlimited action => cases hstep
  | unlimited pool =>
    cases action with
    | bounded action => cases hstep
    | unlimited action =>
      obtain ⟨last, hlast, rfl⟩ := Option.map_eq_some_iff.mp hstep
      simp only [Pool.Unfinished, not_exists, not_and, not_not] at h ⊢
      refine thread_pool.unlimited.State.finished_step h ?_ hlast
      rintro function rfl
      cases hinternal

/-- A `submit` that throws and the start of `~ThreadPool` leave the tasks alone. -/
theorem Pool.unfinished_of_throw {pool next : Pool workers} {numbered : Bool}
    (hthrow : (pool.submitThrows numbered).bind Pool.destroy = some next) :
    next.Unfinished ↔ pool.Unfinished := by
  obtain ⟨middle, hmiddle, hdestroy⟩ := Option.bind_eq_some_iff.mp hthrow
  cases pool with
  | bounded pool =>
    simp only [Pool.submitThrows, Option.ite_none_right_eq_some, Option.some.injEq] at hmiddle
    obtain ⟨_, rfl⟩ := hmiddle
    simp only [Pool.destroy, Option.ite_none_right_eq_some] at hdestroy
    obtain ⟨⟨hlive, _⟩, hdestroy⟩ := hdestroy
    simp only [thread_pool.State.destructorStep, hlive, Option.map_some, Option.some.injEq] at hdestroy
    subst hdestroy
    exact Iff.rfl
  | unlimited pool =>
    simp only [Pool.submitThrows, Option.ite_none_right_eq_some, Option.some.injEq] at hmiddle
    obtain ⟨hidle, rfl⟩ := hmiddle
    obtain ⟨last, hlast, rfl⟩ := Option.map_eq_some_iff.mp hdestroy
    simp only [thread_pool.unlimited.State.step, Option.ite_none_left_eq_some, hidle, if_true,
      Option.some.injEq] at hlast
    obtain ⟨_, rfl⟩ := hlast
    exact Iff.rfl

/-- From the end of the heartbeats on, the main thread has stored `stop`. -/
def Phase.hasStopped : Phase → Bool
  | .stopped | .waiting | .clearing | .destroying false => true
  | _ => false

/-- What an exceptional exit without unfinished tasks keeps. -/
structure State.Guarded (s : State workers) : Prop where
  stopped : s.phase.hasStopped → s.stop
  unwinding : s.phase = .destroying true → ¬ s.HasUnfinished

/-- Before `stop` a guarded `main` waits for no task. -/
theorem State.Guarded.not_blocked {s : State workers} (h : s.Guarded) (hstop : s.stop = false) :
    ¬ s.Blocked := by
  rintro ⟨hjoins, hunfinished⟩
  have hrunning : s.phase.hasStopped = false := by
    by_contra hstopped
    have hstored := h.stopped (by simpa using hstopped)
    rw [hstop] at hstored
    cases hstored
  cases hphase : s.phase with
  | destroying unwinding =>
    cases unwinding with
    | true => exact h.unwinding hphase hunfinished
    | false => simp [hphase, Phase.hasStopped] at hrunning
  | waiting => simp [hphase, Phase.hasStopped] at hrunning
  | _ => simp [hphase, Phase.joins] at hjoins

/-- Before that, it has not. -/
def Phase.isRunning : Phase → Bool
  | .constructing | .starting _ | .heartbeat | .destroying true => true
  | _ => false

/-- What a step does to the phase, to `stop` and to the tasks: the pool moves on; a
`submit` throws; or the main thread goes on to another phase. -/
inductive Move (s next : State workers) : Action workers → Prop where
  | inside (pool last : Pool workers) (action : PoolAction workers)
      (hpool : s.testThreadPool = some pool) (hstep : pool.step action = some last)
      (hphase : next.phase = s.phase) (hstop : next.stop = s.stop)
      (hnext : next.testThreadPool = some last) : Move s next (.pool action)
  | threw (numbered : Bool) (pool last : Pool workers) (hrunning : s.phase.isRunning)
      (hpool : s.testThreadPool = some pool)
      (hthrow : (pool.submitThrows numbered).bind Pool.destroy = some last)
      (hphase : next.phase = .destroying true) (hstop : next.stop = s.stop)
      (hnext : next.testThreadPool = some last) : Move s next (.submitThrows numbered)
  | onward {action : Action workers} (hquiet : ∀ numbered, action ≠ .submitThrows numbered)
      (hphase : next.phase ≠ .destroying true)
      (hrunning : next.phase.isRunning → s.phase.isRunning ∧ next.stop = s.stop)
      (hstopped : next.phase.hasStopped →
        next.stop = true ∨ s.phase.hasStopped ∧ next.stop = s.stop) : Move s next action

/-- The main thread goes on before it has stored `stop`. -/
theorem Move.running {s next : State workers} {action : Action workers}
    (hquiet : ∀ numbered, action ≠ .submitThrows numbered) (hbefore : s.phase.isRunning)
    (hphase : next.phase ≠ .destroying true) (hafter : next.phase.hasStopped = false)
    (hstop : next.stop = s.stop) : Move s next action := by
  refine .onward hquiet hphase (fun _ => ⟨hbefore, hstop⟩) ?_
  rw [hafter]
  rintro ⟨⟩

/-- The main thread goes on after it has stored `stop`. -/
theorem Move.stopped {s next : State workers} {action : Action workers}
    (hquiet : ∀ numbered, action ≠ .submitThrows numbered) (hbefore : s.phase.hasStopped)
    (hphase : next.phase ≠ .destroying true) (hafter : next.phase.isRunning = false)
    (hstop : next.stop = s.stop) : Move s next action := by
  refine .onward hquiet hphase ?_ (fun _ => .inr ⟨hbefore, hstop⟩)
  rw [hafter]
  rintro ⟨⟩

section step

variable {maxThreads : Option Int} {tests : Nat} {s next : State (workerCount maxThreads)}

/-- A call moves the main thread on and keeps the rest. -/
theorem State.call_eq_some_iff {s next : State workers} {phase : Phase}
    {f : Pool workers → Option (Pool workers)} : s.call phase f = some next ↔
      ∃ pool last, s.testThreadPool = some pool ∧ f pool = some last ∧
        next = { s with phase, testThreadPool := some last } := by
  simp only [State.call, Option.map_eq_some_iff, Option.bind_eq_some_iff]
  constructor
  · rintro ⟨last, ⟨pool, hpool, hlast⟩, rfl⟩
    exact ⟨pool, last, hpool, hlast, rfl⟩
  · rintro ⟨pool, last, hpool, hlast, rfl⟩
    exact ⟨last, ⟨pool, hpool, hlast⟩, rfl⟩

/-- Every step of `main` is one of these moves. -/
theorem Move.of_step {action : Action (workerCount maxThreads)}
    (hstep : s.step maxThreads tests action = some next) : Move s next action := by
  cases action with
  | construct =>
    cases hphase : s.phase with
    | constructing =>
      simp only [State.step, hphase, Option.map_eq_some_iff] at hstep
      obtain ⟨pool, _, rfl⟩ := hstep
      exact .running (by simp) (by rw [hphase]; rfl) (by simp) rfl rfl
    | _ => simp [State.step, hphase] at hstep
  | constructThrows created =>
    cases hphase : s.phase with
    | constructing =>
      simp only [State.step, hphase, Option.ite_none_right_eq_some, Option.some.injEq] at hstep
      obtain ⟨_, rfl⟩ := hstep
      refine .onward (by simp) ?_ ?_ ?_ <;> dsimp only <;> split <;> simp [Phase.isRunning, Phase.hasStopped]
    | _ => simp [State.step, hphase] at hstep
  | submit =>
    cases hphase : s.phase with
    | starting index =>
      simp only [State.step, hphase, Option.ite_none_right_eq_some, State.call_eq_some_iff] at hstep
      obtain ⟨_, pool, last, _, _, rfl⟩ := hstep
      exact .running (by simp) (by rw [hphase]; rfl) (by simp) rfl rfl
    | _ => simp [State.step, hphase] at hstep
  | submitThrows numbered =>
    cases hphase : s.phase with
    | starting index =>
      simp only [State.step, hphase, Option.ite_none_right_eq_some, State.call_eq_some_iff] at hstep
      obtain ⟨_, pool, last, hpool, hthrow, rfl⟩ := hstep
      exact .threw numbered pool last (by rw [hphase]; rfl) hpool hthrow rfl rfl rfl
    | _ => simp [State.step, hphase] at hstep
  | started =>
    cases hphase : s.phase with
    | starting index =>
      simp only [State.step, hphase, Option.ite_none_right_eq_some, Option.some.injEq] at hstep
      obtain ⟨_, rfl⟩ := hstep
      exact .running (by simp) (by rw [hphase]; rfl) (by simp) rfl rfl
    | _ => simp [State.step, hphase] at hstep
  | heartbeat =>
    cases hphase : s.phase with
    | heartbeat =>
      simp only [State.step, hphase, Option.ite_none_left_eq_some, Option.some.injEq] at hstep
      obtain ⟨_, rfl⟩ := hstep
      exact .running (by simp) (by rw [hphase]; rfl) (by simp [hphase])
        (by simp [hphase, Phase.hasStopped]) rfl
    | _ => simp [State.step, hphase] at hstep
  | stop =>
    cases hphase : s.phase with
    | heartbeat =>
      simp only [State.step, hphase, Option.some.injEq] at hstep
      subst hstep
      exact .onward (by simp) (by simp) (by simp [Phase.isRunning]) (fun _ => .inl rfl)
    | _ => simp [State.step, hphase] at hstep
  | wait =>
    cases hphase : s.phase with
    | stopped =>
      simp only [State.step, hphase, State.call_eq_some_iff] at hstep
      obtain ⟨pool, last, _, _, rfl⟩ := hstep
      exact .stopped (by simp) (by rw [hphase]; rfl) (by simp) rfl rfl
    | _ => simp [State.step, hphase] at hstep
  | waited =>
    cases hphase : s.phase with
    | waiting =>
      simp only [State.step, hphase, Option.ite_none_right_eq_some, Option.some.injEq] at hstep
      obtain ⟨_, rfl⟩ := hstep
      exact .stopped (by simp) (by rw [hphase]; rfl) (by simp) rfl rfl
    | _ => simp [State.step, hphase] at hstep
  | clear =>
    cases hphase : s.phase with
    | clearing =>
      simp only [State.step, hphase, State.call_eq_some_iff] at hstep
      obtain ⟨pool, last, _, _, rfl⟩ := hstep
      exact .stopped (by simp) (by rw [hphase]; rfl) (by simp) rfl rfl
    | _ => simp [State.step, hphase] at hstep
  | destroyed =>
    cases hphase : s.phase with
    | destroying unwinding =>
      simp only [State.step, hphase, Option.ite_none_right_eq_some, Option.some.injEq] at hstep
      obtain ⟨_, rfl⟩ := hstep
      exact .onward (by simp) (by simp) (by simp [Phase.isRunning]) (by simp [Phase.hasStopped])
    | _ => simp [State.step, hphase] at hstep
  | pool action =>
    simp only [State.step, Option.map_eq_some_iff, Option.bind_eq_some_iff] at hstep
    obtain ⟨last, ⟨pool, hpool, hlast⟩, rfl⟩ := hstep
    exact .inside pool last action hpool hlast rfl rfl rfl

end step

section runs

variable {maxThreads : Option Int} {tests : Nat} {s : State (workerCount maxThreads)}

/-- In a run in which submits throw quietly, `main` is guarded. -/
theorem State.guarded_of_reachableBy (hreach : (mainMachine maxThreads tests).ReachableBy QuietThrow s) :
    s.Guarded := by
  refine transition.Machine.ReachableBy.invariant (I := State.Guarded) ?_ ?_ hreach
  · rintro s rfl
    exact ⟨by simp [Phase.hasStopped], by simp⟩
  · intro s action next _ h hok hstep
    cases Move.of_step hstep with
    | inside pool last action hpool hlast hphase hstop hnext =>
      constructor
      · rw [hphase, hstop]
        exact h.stopped
      · rw [hphase]
        intro hunwinding
        rintro ⟨other, hother, hunfinished⟩
        rw [hnext, Option.some.injEq] at hother
        subst hother
        refine Pool.finished_step (fun hbefore => ?_) hlast hunfinished
        exact h.unwinding hunwinding ⟨pool, hpool, hbefore⟩
    | threw numbered pool last _ hpool hthrow hphase _ hnext =>
      constructor
      · rw [hphase]
        simp [Phase.hasStopped]
      · rintro - ⟨other, hother, hunfinished⟩
        rw [hnext, Option.some.injEq] at hother
        subst hother
        exact hok ⟨pool, hpool, (Pool.unfinished_of_throw hthrow).mp hunfinished⟩
    | onward _ hphase _ hstopped =>
      constructor
      · intro hlater
        obtain hstored | ⟨hearlier, hsame⟩ := hstopped hlater
        · exact hstored
        · rw [hsame]
          exact h.stopped hearlier
      · exact fun hunwinding => absurd hunwinding hphase

/-- Nobody but the main thread stores `stop`. -/
theorem State.running_of_reachable (hreach : (mainMachine maxThreads tests).Reachable s) :
    s.phase.isRunning → s.stop = false := by
  refine transition.Machine.ReachableBy.invariant
    (I := fun s => s.phase.isRunning → s.stop = false) ?_ ?_ hreach
  · rintro s rfl _
    rfl
  · intro s action next _ h _ hstep hrunning
    cases Move.of_step hstep with
    | inside _ _ _ _ _ hphase hstop =>
      rw [hstop]
      exact h (hphase ▸ hrunning)
    | threw _ _ _ hbefore _ _ _ hstop => exact hstop.trans (h hbefore)
    | onward _ _ honward =>
      obtain ⟨hbefore, hstop⟩ := honward hrunning
      exact hstop.trans (h hbefore)

/-- Whatever `ctx.maxThreads` and the number of tests are: as long as no `submit` throws while a
task submitted earlier is unfinished, the main thread is never left waiting for a task in `wait`
or `~ThreadPool` before it has stored `stop`; and a `submit` that does leaves it so at once. -/
theorem State.safe_shutdown (maxThreads : Option Int) (tests : Nat) :
    (∀ s, (mainMachine maxThreads tests).ReachableBy QuietThrow s → s.Blocked → s.stop) ∧
      ∀ s action next, (mainMachine maxThreads tests).Reachable s → ¬ QuietThrow s action →
        s.step maxThreads tests action = some next → next.Blocked ∧ next.stop = false := by
  constructor
  · intro s hreach hblocked
    by_contra hrunning
    exact (State.guarded_of_reachableBy hreach).not_blocked (by simpa using hrunning) hblocked
  · intro s action next hreach hloud hstep
    have hrunning := State.running_of_reachable hreach
    cases Move.of_step hstep with
    | threw numbered pool last hbefore hpool hthrow hphase hstop hnext =>
      simp only [QuietThrow, not_not] at hloud
      obtain ⟨other, hother, hunfinished⟩ := hloud
      rw [hpool, Option.some.injEq] at hother
      subst hother
      refine ⟨⟨by rw [hphase]; rfl, last, hnext, ?_⟩, hstop.trans (hrunning hbefore)⟩
      exact (Pool.unfinished_of_throw hthrow).mpr hunfinished
    | inside => exact absurd trivial hloud
    | onward hquiet =>
      cases action with
      | submitThrows numbered => exact absurd rfl (hquiet numbered)
      | _ => exact absurd trivial hloud

/-- Whether a task is unfinished can be computed. -/
theorem State.hasUnfinished_iff {s : State workers} :
    s.HasUnfinished ↔ s.testThreadPool.any (fun pool => pool.Unfinished) = true := by
  simp only [State.HasUnfinished, Option.any_eq_true, decide_eq_true_eq]

/-- The worker of a pool that has one. -/
def onlyWorker : Fin (workerCount (some 1)) := ⟨0, by decide⟩

/-- With one worker, the main thread waits for a running test after `stop`. -/
theorem safe_shutdown_during_test :
    ∃ s, (mainMachine (some 1) 1).ReachableBy QuietThrow s ∧ s.Blocked ∧ s.stop := by
  obtain ⟨s, hreach, hcheck⟩ := transition.Machine.exists_reachableBy_of_run QuietThrow
    (M := mainMachine (some 1) 1) (s := {}) rfl
    [.construct, .submit, .pool (.bounded (.notify (.caller ()) none)), .started,
      .pool (.bounded (.workerStep onlyWorker)), .pool (.bounded (.workerStep onlyWorker)),
      .stop, .wait]
    (by simp [QuietThrow])
    (fun s => s.phase = .waiting ∧ s.testThreadPool.any fun pool => pool.Unfinished) (by decide)
  simp only [decide_eq_true_eq] at hcheck
  have hblocked : s.Blocked := ⟨by rw [hcheck.1]; rfl, State.hasUnfinished_iff.mpr hcheck.2⟩
  exact ⟨s, hreach, hblocked, (State.safe_shutdown (some 1) 1).1 s hreach hblocked⟩

/-- The second of two submissions throws while the first test is running. -/
theorem exists_blocked_before_stop :
    ∃ s, (mainMachine (some 1) 2).Reachable s ∧ s.Blocked ∧ s.stop = false := by
  obtain ⟨s, hreach, hcheck⟩ := transition.Machine.exists_reachable_of_run
    (M := mainMachine (some 1) 2) (s := {}) rfl
    [.construct, .submit, .pool (.bounded (.notify (.caller ()) none)),
      .pool (.bounded (.workerStep onlyWorker)), .pool (.bounded (.workerStep onlyWorker)),
      .submitThrows false]
    (fun s => (s.phase = .destroying true ∧ s.stop = false) ∧
      s.testThreadPool.any fun pool => pool.Unfinished) (by decide)
  simp only [decide_eq_true_eq] at hcheck
  obtain ⟨⟨hphase, hstop⟩, hunfinished⟩ := hcheck
  exact ⟨s, hreach, ⟨by rw [hphase]; rfl, State.hasUnfinished_iff.mpr hunfinished⟩, hstop⟩

end runs

end spdlogger.main
