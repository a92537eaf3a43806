import Spdlogger.Main.Links

namespace spdlogger.main

variable {workers : Nat} {maxThreads : Option Int} {tests : Nat}

section pool

variable {pool next : Pool workers}

/-- A step of the pool starts a test, ends one, or leaves them as they are. -/
theorem Pool.Linked.passes {phase : Phase} (h : pool.Linked tests phase)
    {action : PoolAction workers} (hstep : pool.step action = some next) :
    next.upcoming + pool.begun action = pool.upcoming ∧
      next.running + pool.ended action = pool.running + pool.begun action := by
  unfold Pool.step at hstep
  rw [Option.ite_none_right_eq_some] at hstep
  obtain ⟨hinternal, hstep⟩ := hstep
  cases pool with
  | bounded pool =>
    cases action with
    | bounded action =>
      obtain ⟨last, hlast, rfl⟩ := Option.map_eq_some_iff.mp hstep
      have hpasses := (thread_pool.State.move_of_step hlast).2.passes
      have hnone : action.submitted = 0 := by
        cases action with
        | submit => cases hinternal
        | _ => rfl
      have hupcoming := hpasses.upcoming
      rw [hnone, add_zero] at hupcoming
      exact ⟨hupcoming, hpasses.running⟩
    | unlimited action => cases hstep
  | unlimited pool =>
    cases action with
    | bounded action => cases hstep
    | unlimited action =>
      obtain ⟨last, hlast, rfl⟩ := Option.map_eq_some_iff.mp hstep
      have hjoined := thread_pool.unlimited.State.joined_of_reachable (UnlimitedLink.reachable h)
      have hpasses := (thread_pool.unlimited.State.move_of_step hlast).2.passes hjoined
      have hnone : action.submitted = 0 := by
        cases action with
        | submit => cases hinternal
        | _ => rfl
      have hupcoming := hpasses.upcoming
      rw [hnone, add_zero] at hupcoming
      exact ⟨hupcoming, hpasses.running⟩

/-- A submit gives the pool one more test to start. -/
theorem Pool.Linked.passes_submit {phase : Phase} (h : pool.Linked tests phase) {index : Nat}
    (hstep : pool.submit index = some next) :
    next.upcoming = pool.upcoming + {index} ∧ next.running = pool.running := by
  cases pool with
  | bounded pool =>
    obtain ⟨last, hlast, rfl⟩ := Option.map_eq_some_iff.mp hstep
    simp only [thread_pool.State.submit, Option.ite_none_right_eq_some, Option.some.injEq] at hlast
    obtain ⟨hcall, rfl⟩ := hlast
    have hpasses := (thread_pool.State.Move.submit (.caller ()) index hcall).passes
    exact ⟨(add_zero _).symm.trans hpasses.upcoming, add_right_cancel hpasses.running⟩
  | unlimited pool =>
    obtain ⟨last, hlast, rfl⟩ := Option.map_eq_some_iff.mp hstep
    have hjoined := thread_pool.unlimited.State.joined_of_reachable (UnlimitedLink.reachable h)
    have hpasses := (thread_pool.unlimited.State.move_of_step hlast).2.passes hjoined
    exact ⟨(add_zero _).symm.trans hpasses.upcoming, add_right_cancel hpasses.running⟩

/-- `wait` and `~ThreadPool` start without touching the tests. -/
theorem Pool.passes_wait (hstep : pool.wait = some next) :
    next.upcoming = pool.upcoming ∧ next.running = pool.running := by
  cases pool with
  | bounded pool =>
    obtain ⟨last, hlast, rfl⟩ := Option.map_eq_some_iff.mp hstep
    cases (thread_pool.State.move_of_step hlast).2
    exact ⟨rfl, rfl⟩
  | unlimited pool =>
    obtain ⟨last, hlast, rfl⟩ := Option.map_eq_some_iff.mp hstep
    cases (thread_pool.unlimited.State.move_of_step hlast).2
    exact ⟨rfl, rfl⟩

/-- The call of the destructor leaves the tests where they are. -/
theorem Pool.passes_destroy (hstep : pool.destroy = some next) :
    next.upcoming = pool.upcoming ∧ next.running = pool.running := by
  cases pool with
  | bounded pool =>
    simp only [Pool.destroy, Option.ite_none_right_eq_some, Option.map_eq_some_iff] at hstep
    obtain ⟨⟨hlive, _⟩, last, hlast, rfl⟩ := hstep
    simp only [thread_pool.State.destructorStep, hlive, Option.some.injEq] at hlast
    subst hlast
    exact ⟨rfl, rfl⟩
  | unlimited pool =>
    have hwait : (Pool.unlimited pool).wait = some next := hstep
    exact Pool.passes_wait hwait

/-- A submit that throws leaves the tests where they are. -/
theorem Pool.passes_throw {numbered : Bool}
    (hstep : (pool.submitThrows numbered).bind Pool.destroy = some next) :
    next.upcoming = pool.upcoming ∧ next.running = pool.running := by
  obtain ⟨middle, hmiddle, hdestroy⟩ := Option.bind_eq_some_iff.mp hstep
  have hsame := Pool.passes_destroy hdestroy
  cases pool with
  | bounded pool =>
    simp only [Pool.submitThrows, Option.ite_none_right_eq_some, Option.some.injEq] at hmiddle
    obtain ⟨_, rfl⟩ := hmiddle
    exact hsame
  | unlimited pool =>
    simp only [Pool.submitThrows, Option.ite_none_right_eq_some, Option.some.injEq] at hmiddle
    obtain ⟨_, rfl⟩ := hmiddle
    exact hsame

/-- A task counts itself out exactly when its test is over. -/
theorem Pool.card_ended {action : PoolAction workers} (hstep : pool.step action = some next) :
    (pool.ended action).card = if action.endsTask then 1 else 0 := by
  unfold Pool.step at hstep
  rw [Option.ite_none_right_eq_some] at hstep
  obtain ⟨_, hstep⟩ := hstep
  cases pool with
  | bounded pool =>
    cases action with
    | bounded action =>
      obtain ⟨last, hlast, rfl⟩ := Option.map_eq_some_iff.mp hstep
      cases (thread_pool.State.move_of_step hlast).2 with
      | returns worker task hphase =>
        simp [Pool.ended, thread_pool.State.ended, hphase, thread_pool.WorkerPhase.running,
          PoolAction.endsTask]
      | throws worker task exception => exact exception.elim
      | _ => rfl
    | unlimited action => cases hstep
  | unlimited pool =>
    cases action with
    | bounded action => cases hstep
    | unlimited action =>
      obtain ⟨last, hlast, rfl⟩ := Option.map_eq_some_iff.mp hstep
      cases (thread_pool.unlimited.State.move_of_step hlast).2 with
      | returns index thread hthread hphase =>
        simp [Pool.ended, thread_pool.unlimited.State.ended, hthread, hphase,
          thread_pool.unlimited.Thread.running, PoolAction.endsTask]
      | throws index exception => exact exception.elim
      | _ => rfl

/-- A pool that has been waited for has no test any more. -/
theorem Pool.Linked.idle_of_clearing (h : pool.Linked tests .clearing) :
    pool.upcoming = 0 ∧ pool.running = 0 := by
  cases pool with
  | bounded pool =>
    obtain ⟨_, _, hemptied⟩ := BoundedLink.fits h
    exact hemptied.idle
  | unlimited pool =>
    have hnil : pool.workerThreads = [] := (UnlimitedLink.fits h).2
    exact thread_pool.unlimited.State.idle_of_finished (by simp [hnil])

/-- A pool that is destroyed has no test left. -/
theorem Pool.Linked.idle_of_destroyed {unwinding : Bool} (h : pool.Linked tests (.destroying unwinding))
    (hdestroyed : pool.destroyed) : pool.upcoming = 0 ∧ pool.running = 0 := by
  cases pool with
  | bounded pool =>
    have hphase : pool.destructor = .destroyed := by simpa [Pool.destroyed] using hdestroyed
    obtain ⟨_, _, hemptied⟩ := BoundedLink.fits h
    exact (hemptied (by rw [hphase]; rfl)).idle
  | unlimited pool =>
    have hidle : pool.caller = .idle := by simpa [Pool.destroyed] using hdestroyed
    have hnil : pool.workerThreads = [] := UnlimitedLink.fits h hidle
    exact thread_pool.unlimited.State.idle_of_finished (by simp [hnil])

end pool

section runs

variable {s : State (workerCount maxThreads)}

/-- The tests that the pool has and that are not over. -/
def State.unended (s : State workers) : Nat :=
  s.testThreadPool.elim 0 fun pool => (pool.upcoming + pool.running).card

/-- The test counted before its `submit` threw is never counted out. -/
def Phase.uncounted : Phase → Nat
  | .destroying true => 1
  | _ => 0

/-- A new pool has no test. -/
theorem Pool.unended_construct {pool : Pool (workerCount maxThreads)}
    (hpool : construct maxThreads = some pool) : pool.upcoming + pool.running = 0 := by
  cases maxThreads with
  | none =>
    cases hpool
    rfl
  | some limit =>
    simp only [construct, Option.ite_none_left_eq_some, Option.some.injEq] at hpool
    obtain ⟨_, rfl⟩ := hpool
    simp [Pool.upcoming, Pool.running, thread_pool.State.upcoming, thread_pool.State.running,
      thread_pool.WorkerPhase.upcoming, thread_pool.WorkerPhase.running]

/-- `main` has returned, or the process is gone. -/
def Phase.isOver : Phase → Bool
  | .returned _ | .terminated => true
  | _ => false

/-- The counter is the number of tests that are not over, and counts the test whose `submit`
threw for good. -/
theorem State.activeTestsCount_eq (htests : tests < 2 ^ 31)
    (hreach : (mainMachine maxThreads tests).Reachable s) (hrunning : s.phase.isOver = false) :
    s.activeTestsCount = ↑(s.unended + s.phase.uncounted) := by
  refine transition.Machine.ReachableBy.invariant (I := fun s => s.phase.isOver = false →
    s.activeTestsCount = ↑(s.unended + s.phase.uncounted)) ?_ ?_ hreach hrunning
  · rintro s rfl _
    rfl
  · intro s action next hs h _ hstep hrunning
    have hlinked := State.linked_of_reachable htests hs.reachable
    cases State.turn_of_step hstep with
    | construct pool hphase hpool =>
      have hnone := hlinked.none_of_outside (by rw [hphase]; rfl)
      have hcount := h (by rw [hphase]; rfl)
      simpa only [State.unended, hnone, hphase, Phase.uncounted, Option.elim_some, Option.elim_none,
        Pool.unended_construct hpool, Multiset.card_zero] using hcount
    | constructThrows created =>
      dsimp only at hrunning
      split at hrunning <;> cases hrunning
    | submit index pool last hphase _ hpool hlast =>
      obtain ⟨hupcoming, hactive⟩ := (hlinked.pool pool hpool).passes_submit hlast
      have hcount := h (by rw [hphase]; rfl)
      simp only [State.unended, hphase, hpool, hupcoming, hactive, Phase.uncounted,
        Option.elim_some, Multiset.card_add, Multiset.card_singleton] at hcount ⊢
      omega
    | submitThrows numbered index pool last hphase _ hpool hlast =>
      obtain ⟨hupcoming, hactive⟩ := Pool.passes_throw hlast
      have hcount := h (by rw [hphase]; rfl)
      simp only [State.unended, hphase, hpool, hupcoming, hactive, Phase.uncounted,
        Option.elim_some] at hcount ⊢
      omega
    | started hphase | stop hphase | waited _ hphase =>
      have hcount := h (by rw [hphase]; rfl)
      rw [hphase] at hcount
      exact hcount
    | heartbeat => exact h hrunning
    | wait pool last hphase hpool hlast =>
      obtain ⟨hupcoming, hactive⟩ := Pool.passes_wait hlast
      have hcount := h (by rw [hphase]; rfl)
      simpa only [State.unended, hphase, hpool, hupcoming, hactive, Option.elim_some,
        Phase.uncounted] using hcount
    | clear pool last hphase hpool hlast =>
      obtain ⟨hupcoming, hactive⟩ := Pool.passes_destroy hlast
      have hcount := h (by rw [hphase]; rfl)
      simpa only [State.unended, hphase, hpool, hupcoming, hactive, Option.elim_some,
        Phase.uncounted] using hcount
    | destroyed => cases hrunning
    | pool action pool last hpool hlast =>
      obtain ⟨hupcoming, hactive⟩ := (hlinked.pool pool hpool).passes hlast
      have hended := Pool.card_ended hlast
      have hcount := h hrunning
      have hupcoming := congrArg Multiset.card hupcoming
      have hactive := congrArg Multiset.card hactive
      simp only [State.unended, hpool, Option.elim_some, Multiset.card_add] at hcount hupcoming hactive ⊢
      rw [hended] at hactive
      cases hends : action.endsTask with
      | true =>
        simp only [hends, if_true] at hactive ⊢
        omega
      | false =>
        simp only [hends, Bool.false_eq_true, if_false] at hactive ⊢
        omega

end runs

end spdlogger.main
