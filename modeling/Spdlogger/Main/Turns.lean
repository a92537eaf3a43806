import Spdlogger.Main.Tasks

namespace spdlogger.main

variable {workers : Nat} {maxThreads : Option Int} {tests : Nat}

/-- The tests that the pool is still to start. -/
def Pool.upcoming : Pool workers → Multiset Nat
  | .bounded pool => pool.upcoming
  | .unlimited pool => pool.upcoming

/-- The tests under way. -/
def Pool.running : Pool workers → Multiset Nat
  | .bounded pool => pool.running
  | .unlimited pool => pool.running

/-- The test that a step of the pool starts. -/
def Pool.begun (pool : Pool workers) (action : PoolAction workers) : Multiset Nat :=
  match pool, action with
  | .bounded pool, .bounded action => pool.begun action
  | .unlimited pool, .unlimited action => pool.begun action
  | _, _ => 0

/-- The test that is over with a step of the pool. -/
def Pool.ended (pool : Pool workers) (action : PoolAction workers) : Multiset Nat :=
  match pool, action with
  | .bounded pool, .bounded action => pool.ended action
  | .unlimited pool, .unlimited action => pool.ended action
  | _, _ => 0

/-- Everything that a step of `main` can do. -/
inductive State.Turn (maxThreads : Option Int) (tests : Nat) (s : State (workerCount maxThreads)) :
    Action (workerCount maxThreads) → State (workerCount maxThreads) → Prop where
  | construct (pool : Pool (workerCount maxThreads)) (hphase : s.phase = .constructing)
      (hpool : main.construct maxThreads = some pool) : Turn maxThreads tests s .construct
        { s with phase := .starting 0, testThreadPool := some pool }
  | constructThrows (created : Nat) (hphase : s.phase = .constructing)
      (hfails : maxThreads.any fun limit => created = 0 ∨ (created : Int) < limit) :
      Turn maxThreads tests s (.constructThrows created)
        { s with phase := if created = 0 then .returned 1 else .terminated }
  | submit (index : Nat) (pool last : Pool (workerCount maxThreads))
      (hphase : s.phase = .starting index) (hindex : index < tests)
      (hpool : s.testThreadPool = some pool) (hlast : pool.submit index = some last) :
      Turn maxThreads tests s .submit { s with
        phase := .starting (index + 1)
        activeTestsCount := s.activeTestsCount + 1
        testThreadPool := some last }
  | submitThrows (numbered : Bool) (index : Nat) (pool last : Pool (workerCount maxThreads))
      (hphase : s.phase = .starting index) (hindex : index < tests)
      (hpool : s.testThreadPool = some pool)
      (hlast : (pool.submitThrows numbered).bind Pool.destroy = some last) :
      Turn maxThreads tests s (.submitThrows numbered) { s with
        phase := .destroying true
        activeTestsCount := s.activeTestsCount + 1
        testThreadPool := some last }
  | started (hphase : s.phase = .starting tests) :
      Turn maxThreads tests s .started { s with phase := .heartbeat }
  | heartbeat (hphase : s.phase = .heartbeat) (hactive : s.activeTestsCount ≠ 0) :
      Turn maxThreads tests s .heartbeat s
  | stop (hphase : s.phase = .heartbeat) :
      Turn maxThreads tests s .stop { s with phase := .stopped, stop := true }
  | wait (pool last : Pool (workerCount maxThreads)) (hphase : s.phase = .stopped)
      (hpool : s.testThreadPool = some pool) (hlast : pool.wait = some last) :
      Turn maxThreads tests s .wait { s with phase := .waiting, testThreadPool := some last }
  | waited (pool : Pool (workerCount maxThreads)) (hphase : s.phase = .waiting)
      (hpool : s.testThreadPool = some pool) (hwaited : pool.waited) :
      Turn maxThreads tests s .waited { s with phase := .clearing }
  | clear (pool last : Pool (workerCount maxThreads)) (hphase : s.phase = .clearing)
      (hpool : s.testThreadPool = some pool) (hlast : pool.destroy = some last) :
      Turn maxThreads tests s .clear
        { s with phase := .destroying false, testThreadPool := some last }
  | destroyed (unwinding : Bool) (pool : Pool (workerCount maxThreads))
      (hphase : s.phase = .destroying unwinding) (hpool : s.testThreadPool = some pool)
      (hdestroyed : pool.destroyed) : Turn maxThreads tests s .destroyed { s with
        phase := .returned (if unwinding then 1 else 0)
        testThreadPool := none }
  | pool (action : PoolAction (workerCount maxThreads)) (pool last : Pool (workerCount maxThreads))
      (hpool : s.testThreadPool = some pool) (hlast : pool.step action = some last) :
      Turn maxThreads tests s (.pool action) { s with
        testThreadPool := some last
        activeTestsCount := s.activeTestsCount - if action.endsTask then 1 else 0 }

/-- Every step of `main` is a turn. -/
theorem State.turn_of_step {s next : State (workerCount maxThreads)}
    {action : Action (workerCount maxThreads)} (hstep : s.step maxThreads tests action = some next) :
    s.Turn maxThreads tests action next := by
  cases action with
  | construct =>
    cases hphase : s.phase with
    | constructing =>
      simp only [State.step, hphase, Option.map_eq_some_iff] at hstep
      obtain ⟨pool, hpool, rfl⟩ := hstep
      exact .construct pool hphase hpool
    | _ => simp [State.step, hphase] at hstep
  | constructThrows created =>
    cases hphase : s.phase with
    | constructing =>
      simp only [State.step, hphase, Option.ite_none_right_eq_some, Option.some.injEq] at hstep
      obtain ⟨hfails, rfl⟩ := hstep
      exact .constructThrows created hphase hfails
    | _ => simp [State.step, hphase] at hstep
  | submit =>
    cases hphase : s.phase with
    | starting index =>
      simp only [State.step, hphase, Option.ite_none_right_eq_some, State.call_eq_some_iff] at hstep
      obtain ⟨hindex, pool, last, hpool, hlast, rfl⟩ := hstep
      exact .submit index pool last hphase hindex hpool hlast
    | _ => simp [State.step, hphase] at hstep
  | submitThrows numbered =>
    cases hphase : s.phase with
    | starting index =>
      simp only [State.step, hphase, Option.ite_none_right_eq_some, State.call_eq_some_iff] at hstep
      obtain ⟨hindex, pool, last, hpool, hlast, rfl⟩ := hstep
      exact .submitThrows numbered index pool last hphase hindex hpool hlast
    | _ => simp [State.step, hphase] at hstep
  | started =>
    cases hphase : s.phase with
    | starting index =>
      simp only [State.step, hphase, Option.ite_none_right_eq_some, Option.some.injEq] at hstep
      obtain ⟨rfl, rfl⟩ := hstep
      exact .started hphase
    | _ => simp [State.step, hphase] at hstep
  | heartbeat =>
    cases hphase : s.phase with
    | heartbeat =>
      simp only [State.step, hphase, Option.ite_none_left_eq_some, Option.some.injEq] at hstep
      obtain ⟨hactive, rfl⟩ := hstep
      exact .heartbeat hphase hactive
    | _ => simp [State.step, hphase] at hstep
  | stop =>
    cases hphase : s.phase with
    | heartbeat =>
      simp only [State.step, hphase, Option.some.injEq] at hstep
      exact hstep ▸ .stop hphase
    | _ => simp [State.step, hphase] at hstep
  | wait =>
    cases hphase : s.phase with
    | stopped =>
      simp only [State.step, hphase, State.call_eq_some_iff] at hstep
      obtain ⟨pool, last, hpool, hlast, rfl⟩ := hstep
      exact .wait pool last hphase hpool hlast
    | _ => simp [State.step, hphase] at hstep
  | waited =>
    cases hphase : s.phase with
    | waiting =>
      simp only [State.step, hphase, Option.ite_none_right_eq_some, Option.any_eq_true,
        Option.some.injEq] at hstep
      obtain ⟨⟨pool, hpool, hwaited⟩, rfl⟩ := hstep
      exact .waited pool hphase hpool hwaited
    | _ => simp [State.step, hphase] at hstep
  | clear =>
    cases hphase : s.phase with
    | clearing =>
      simp only [State.step, hphase, State.call_eq_some_iff] at hstep
      obtain ⟨pool, last, hpool, hlast, rfl⟩ := hstep
      exact .clear pool last hphase hpool hlast
    | _ => simp [State.step, hphase] at hstep
  | destroyed =>
    cases hphase : s.phase with
    | destroying unwinding =>
      simp only [State.step, hphase, Option.ite_none_right_eq_some, Option.any_eq_true,
        Option.some.injEq] at hstep
      obtain ⟨⟨pool, hpool, hdestroyed⟩, rfl⟩ := hstep
      exact .destroyed unwinding pool hphase hpool hdestroyed
    | _ => simp [State.step, hphase] at hstep
  | pool action =>
    simp only [State.step, Option.map_eq_some_iff, Option.bind_eq_some_iff] at hstep
    obtain ⟨last, ⟨pool, hpool, hlast⟩, rfl⟩ := hstep
    exact .pool action pool last hpool hlast

end spdlogger.main
