import Mathlib.Data.Fintype.Option
import Spdlogger.Main.Lifecycle
import Spdlogger.ThreadPool.UnlimitedDelivery

namespace spdlogger.thread_pool.unlimited

variable {Fn Exception : Type}

/-- A bound on the steps the threads and the loop of `wait` take. -/
def State.stepsLeft (s : State Fn) : Nat :=
  (s.workerThreads.map fun thread => thread.phase.remaining).sum +
    s.caller.remaining s.workerThreads.length

/-- The steps the pool takes by itself. -/
def Action.isProgress : Action Fn Exception → Bool
  | .submit _ | .wait => false
  | _ => true

theorem State.stepsLeft_lt [IsEmpty Exception] {s next : State Fn} {action : Action Fn Exception}
    (hprogress : action.isProgress) (hmove : s.Move action next) : next.stepsLeft < s.stepsLeft := by
  cases hmove with
  | submit | wait => cases hprogress
  | join index thread hcaller hthread =>
    have hlt := (List.getElem?_eq_some_iff.mp hthread).1
    simp only [State.stepsLeft, hcaller, CallerPhase.remaining]
    omega
  | clear index hcaller =>
    simp only [State.stepsLeft, hcaller, CallerPhase.remaining, List.map_nil, List.sum_nil]
    omega
  | invoke index thread hthread hphase =>
    have hless := State.sum_setPhase hthread .invoking (by rw [hphase]; decide)
    simp only [State.stepsLeft, State.length_setPhase, State.caller_setPhase]
    exact Nat.add_lt_add_right hless _
  | returns index thread hthread hphase =>
    have hless := State.sum_setPhase hthread .finished (by rw [hphase]; decide)
    simp only [State.stepsLeft, State.length_setPhase, State.caller_setPhase]
    exact Nat.add_lt_add_right hless _
  | throws index exception => exact isEmptyElim exception

/-- There are no more threads than submitted functions. -/
theorem State.length_le_submitted {s : State Fn}
    (hreach : (poolMachine Fn Exception).Reachable s) :
    s.workerThreads.length ≤ s.submitted.length := by
  refine transition.Machine.Reachable.invariant
    (I := fun s => s.workerThreads.length ≤ s.submitted.length) ?_ ?_ hreach
  · rintro s rfl
    exact le_rfl
  · intro s action next h hstep
    cases (State.move_of_step hstep).2 with
    | submit function =>
      simpa using h
    | clear => exact Nat.zero_le _
    | invoke | returns =>
      rw [State.length_setPhase]
      exact h
    | wait | join | throws => exact h

end spdlogger.thread_pool.unlimited

namespace spdlogger.main

open spdlogger.test_context (TestContext)

variable {workers : Nat} {maxThreads : Option Int} {tests : Nat}

/-- A bound on the steps a pool takes before it rests. -/
def Pool.stepsLeft : Pool workers → Nat
  | .bounded pool => pool.remaining
  | .unlimited pool => pool.stepsLeft

/-- What a call of the pool costs at most. -/
def callCost (workers tests : Nat) : Nat := 4 * workers + tests + 20

/-- The calls that the main thread is still to make. -/
def Phase.callsLeft (tests : Nat) : Phase → Nat
  | .constructing => tests + 7
  | .starting index => tests - index + 6
  | .heartbeat => 5
  | .stopped => 4
  | .waiting => 3
  | .clearing => 2
  | .destroying _ => 1
  | .returned _ | .terminated => 0

/-- What is left to do for `main` and its pool. -/
def State.stepsLeft (tests : Nat) (s : State workers) : Nat :=
  callCost workers tests * s.phase.callsLeft tests + s.testThreadPool.elim 0 Pool.stepsLeft

/-- The steps that the pool takes by itself. Spurious wake-ups are up to others. -/
def PoolAction.isProgress : PoolAction workers → Bool
  | .bounded action => action.isProgress
  | .unlimited action => action.isProgress

/-- The steps of `main`, its pool and its tests, apart from heartbeats, which the clock
limits, and spurious wake-ups. -/
def Action.advances : Action workers → Bool
  | .heartbeat => false
  | .pool action => action.isProgress
  | _ => true

/-- Exceptions apart. -/
def Action.isOwn : Action workers → Bool
  | .constructThrows _ | .submitThrows _ => false
  | action => action.advances

section pool

variable {pool next : Pool workers}

/-- The clients are the main thread, the destructor and one for each worker. -/
theorem card_client : Fintype.card (thread_pool.Client Unit workers) = workers + 2 := by
  let clients : thread_pool.Client Unit workers ≃ Option (Option (Fin workers)) := {
    toFun := fun
      | .caller _ => none
      | .destructor => some none
      | .task worker => some (some worker)
    invFun := fun
      | none => .caller ()
      | some none => .destructor
      | some (some worker) => .task worker
    left_inv := fun client => by cases client <;> rfl
    right_inv := fun client => by rcases client with _ | _ | _ <;> rfl }
  rw [Fintype.card_congr clients, Fintype.card_option, Fintype.card_option, Fintype.card_fin]

/-- Each step of progress of a genuine pool lowers the bound. -/
theorem Genuine.remaining_lt {phase : Phase} {pool next : thread_pool.State workers Unit Nat Empty}
    (h : Genuine phase pool) {action : thread_pool.Action workers Unit Nat Empty}
    (hprogress : action.isProgress) (hstep : pool.step action = some next) :
    next.remaining < pool.remaining :=
  thread_pool.State.remaining_lt h.orderly hprogress (thread_pool.State.move_of_step hstep).2

theorem Pool.Linked.stepsLeft_lt {phase : Phase} (h : pool.Linked tests phase)
    {action : PoolAction workers} (hprogress : action.isProgress)
    (hstep : pool.step action = some next) : next.stepsLeft < pool.stepsLeft := by
  unfold Pool.step at hstep
  rw [Option.ite_none_right_eq_some] at hstep
  obtain ⟨hinternal, hstep⟩ := hstep
  cases pool with
  | bounded pool =>
    cases action with
    | bounded action =>
      obtain ⟨last, hlast, rfl⟩ := Option.map_eq_some_iff.mp hstep
      exact (BoundedLink.genuine h).remaining_lt hprogress hlast
    | unlimited action => cases hstep
  | unlimited pool =>
    cases action with
    | bounded action => cases hstep
    | unlimited action =>
      obtain ⟨last, hlast, rfl⟩ := Option.map_eq_some_iff.mp hstep
      exact thread_pool.unlimited.State.stepsLeft_lt hprogress
        (thread_pool.unlimited.State.move_of_step hlast).2

/-- A spurious wake-up costs one round of a thread. -/
theorem Pool.Linked.stepsLeft_le {phase : Phase} (h : pool.Linked tests phase)
    {action : PoolAction workers} (hother : action.isProgress = false)
    (hstep : pool.step action = some next) : next.stepsLeft ≤ pool.stepsLeft + (workers + 9) := by
  unfold Pool.step at hstep
  rw [Option.ite_none_right_eq_some] at hstep
  obtain ⟨hinternal, hstep⟩ := hstep
  cases pool with
  | bounded pool =>
    cases action with
    | bounded action =>
      obtain ⟨last, hlast, rfl⟩ := Option.map_eq_some_iff.mp hstep
      obtain ⟨id, hreach, _⟩ := BoundedLink.genuine h
      have hcall := (Internal.of_isInternal hinternal).submit
      have hmore := thread_pool.usesUp.replenishes _ action _ hreach hother
        (thread_pool.State.step_nextTaskId id hcall hlast)
      rw [card_client] at hmore
      exact hmore
    | unlimited action => cases hstep
  | unlimited pool =>
    cases action with
    | bounded action => cases hstep
    | unlimited action =>
      cases action with
      | submit | wait => cases hinternal
      | _ => cases hother

/-- The call of `wait` costs no more than its loop. -/
theorem UnlimitedLink.stepsLeft_wait {phase : Phase} {pool next : thread_pool.unlimited.State Nat}
    (h : UnlimitedLink tests phase pool) (hphase : phase.submitted tests ≤ tests)
    (hstep : pool.step (.wait : thread_pool.unlimited.Action Nat Empty) = some next) :
    next.stepsLeft < pool.stepsLeft + callCost workers tests := by
  have hthreads := (thread_pool.unlimited.State.length_le_submitted h.reachable).trans h.submitted
  cases (thread_pool.unlimited.State.move_of_step hstep).2 with
  | wait hidle =>
    simp only [callCost, thread_pool.unlimited.State.stepsLeft, hidle,
      thread_pool.unlimited.CallerPhase.remaining]
    omega

/-- Each call of the pool costs less than is set aside for it. -/
theorem Pool.Linked.stepsLeft_submit {index : Nat} (h : pool.Linked tests (.starting index))
    (hstep : pool.submit index = some next) :
    next.stepsLeft < pool.stepsLeft + callCost workers tests := by
  cases pool with
  | bounded pool =>
    obtain ⟨last, hlast, rfl⟩ := Option.map_eq_some_iff.mp hstep
    have hreach := (BoundedLink.genuine h).reachable (by simp)
    have hmachine : (thread_pool.poolMachine workers Unit Nat Empty).step pool
        (.submit (.caller ()) index) = some last := by
      simp only [thread_pool.poolMachine, thread_pool.State.step,
        if_neg (BoundedLink.genuine h).running]
      exact hlast
    have hmore := thread_pool.usesUp.replenishes _ _ _ hreach rfl hmachine
    rw [card_client] at hmore
    simp only [Pool.stepsLeft, callCost]
    omega
  | unlimited pool =>
    obtain ⟨last, hlast, rfl⟩ := Option.map_eq_some_iff.mp hstep
    cases (thread_pool.unlimited.State.move_of_step hlast).2 with
    | submit _ hidle =>
      simp only [Pool.stepsLeft, callCost, thread_pool.unlimited.State.stepsLeft, hidle,
        thread_pool.unlimited.CallerPhase.remaining, thread_pool.unlimited.ThreadPhase.remaining,
        List.map_append, List.map_singleton, List.sum_append, List.sum_singleton]
      omega

/-- The call of `wait` has its cost, in either mode. -/
theorem Pool.Linked.stepsLeft_wait (h : pool.Linked tests .stopped) (hstep : pool.wait = some next) :
    next.stepsLeft < pool.stepsLeft + callCost workers tests := by
  cases pool with
  | bounded pool =>
    obtain ⟨last, hlast, rfl⟩ := Option.map_eq_some_iff.mp hstep
    have hreach := (BoundedLink.genuine h).reachable (by simp)
    have hmore := thread_pool.usesUp.replenishes _ (.wait (.caller ())) _ hreach rfl hlast
    rw [card_client] at hmore
    simp only [Pool.stepsLeft, callCost]
    omega
  | unlimited pool =>
    obtain ⟨last, hlast, rfl⟩ := Option.map_eq_some_iff.mp hstep
    exact UnlimitedLink.stepsLeft_wait h le_rfl hlast

/-- The call of the destructor has its cost, in either mode. -/
theorem Pool.Linked.stepsLeft_destroy {phase : Phase} (h : pool.Linked tests phase)
    (hphase : phase.submitted tests ≤ tests) (hstep : pool.destroy = some next) :
    next.stepsLeft < pool.stepsLeft + callCost workers tests := by
  cases pool with
  | bounded pool =>
    simp only [Pool.destroy, Option.ite_none_right_eq_some, Option.map_eq_some_iff] at hstep
    obtain ⟨⟨hlive, _⟩, last, hlast, rfl⟩ := hstep
    have hmachine : pool.step .destructorStep = some last := by
      rw [thread_pool.State.step, if_neg (BoundedLink.genuine h).running]
      exact hlast
    have hless := (BoundedLink.genuine h).remaining_lt rfl hmachine
    exact hless.trans_le (Nat.le_add_right _ _)
  | unlimited pool =>
    obtain ⟨last, hlast, rfl⟩ := Option.map_eq_some_iff.mp hstep
    exact UnlimitedLink.stepsLeft_wait h hphase hlast

/-- A submit that throws has the cost of a call. -/
theorem Pool.Linked.stepsLeft_throws {index : Nat} {numbered : Bool}
    (h : pool.Linked tests (.starting index)) (hindex : index < tests)
    (hstep : (pool.submitThrows numbered).bind Pool.destroy = some next) :
    next.stepsLeft < pool.stepsLeft + callCost workers tests := by
  obtain ⟨middle, hmiddle, hdestroy⟩ := Option.bind_eq_some_iff.mp hstep
  cases pool with
  | bounded pool =>
    simp only [Pool.submitThrows, Option.ite_none_right_eq_some, Option.some.injEq] at hmiddle
    obtain ⟨_, rfl⟩ := hmiddle
    simp only [Pool.destroy, Option.ite_none_right_eq_some, Option.map_eq_some_iff] at hdestroy
    obtain ⟨⟨hlive, _⟩, last, hlast, rfl⟩ := hdestroy
    simp only [thread_pool.State.destructorStep, hlive, Option.some.injEq] at hlast
    subst hlast
    have hless := thread_pool.State.remaining_lt (BoundedLink.genuine h).orderly rfl (.destruct hlive)
    exact hless.trans_le (Nat.le_add_right _ _)
  | unlimited pool =>
    simp only [Pool.submitThrows, Option.ite_none_right_eq_some, Option.some.injEq] at hmiddle
    obtain ⟨_, rfl⟩ := hmiddle
    have hlink : (Pool.unlimited pool : Pool workers).Linked tests (.starting index) := h
    exact hlink.stepsLeft_destroy hindex.le hdestroy

end pool

section runs

/-- The construction has the cost of a call. -/
theorem Pool.stepsLeft_construct {pool : Pool (workerCount maxThreads)}
    (hpool : construct maxThreads = some pool) :
    pool.stepsLeft < callCost (workerCount maxThreads) tests := by
  cases maxThreads with
  | none =>
    cases hpool
    simp [Pool.stepsLeft, thread_pool.unlimited.State.stepsLeft,
      thread_pool.unlimited.CallerPhase.remaining, callCost]
  | some limit =>
    simp only [construct, Option.ite_none_left_eq_some, Option.some.injEq] at hpool
    obtain ⟨_, rfl⟩ := hpool
    simp only [Pool.stepsLeft, thread_pool.State.remaining, thread_pool.WorkerPhase.remaining,
      thread_pool.ClientPhase.remaining, thread_pool.DestructorPhase.remaining, Finset.sum_const,
      Finset.card_univ, Fintype.card_fin, List.length_nil, nsmul_eq_mul, Nat.cast_id, callCost]
    omega

theorem callCost_pos (workers tests : Nat) : 0 < callCost workers tests := by
  unfold callCost
  omega

/-- A call takes the main thread on by more than it adds to the pool. -/
theorem add_lt_of_call {cost before after left next : Nat} (hcalls : after < before)
    (hpool : next < left + cost) : cost * after + next < cost * before + left := by
  calc cost * after + next < cost * after + (left + cost) := Nat.add_lt_add_left hpool _
    _ = cost * (after + 1) + left := by rw [Nat.mul_add_one]; omega
    _ ≤ cost * before + left := Nat.add_le_add_right (Nat.mul_le_mul_left _ hcalls) _

variable {s next : State (workerCount maxThreads)}

/-- `main` gets on with every step of its own. -/
theorem State.stepsLeft_lt (htests : tests < 2 ^ 31)
    (hreach : (mainMachine maxThreads tests).Reachable s)
    {action : Action (workerCount maxThreads)} (hadvances : action.advances)
    (hstep : s.step maxThreads tests action = some next) : next.stepsLeft tests < s.stepsLeft tests := by
  have hlinked := State.linked_of_reachable htests hreach
  have hcost := callCost_pos (workerCount maxThreads) tests
  cases State.turn_of_step hstep with
  | construct pool hphase hpool =>
    have hnone := hlinked.none_of_outside (by rw [hphase]; rfl)
    simp only [State.stepsLeft, hnone, hphase, Option.elim_some, Option.elim_none]
    exact add_lt_of_call (by simp [Phase.callsLeft]) (by simpa using Pool.stepsLeft_construct hpool)
  | constructThrows created hphase =>
    have hnone := hlinked.none_of_outside (by rw [hphase]; rfl)
    simp only [State.stepsLeft, hnone, hphase, Option.elim_none]
    refine add_lt_of_call ?_ (by omega)
    split <;> simp [Phase.callsLeft]
  | submit index pool last hphase hindex hpool hlast =>
    have hlink := hlinked.pool pool hpool
    rw [hphase] at hlink
    simp only [State.stepsLeft, hpool, hphase, Option.elim_some]
    exact add_lt_of_call (by simp only [Phase.callsLeft]; omega) (hlink.stepsLeft_submit hlast)
  | submitThrows numbered index pool last hphase hindex hpool hlast =>
    have hlink := hlinked.pool pool hpool
    rw [hphase] at hlink
    simp only [State.stepsLeft, hpool, hphase, Option.elim_some]
    exact add_lt_of_call (by simp only [Phase.callsLeft]; omega) (hlink.stepsLeft_throws hindex hlast)
  | started hphase | stop hphase =>
    simp only [State.stepsLeft, hphase]
    exact add_lt_of_call (by simp [Phase.callsLeft]) (by omega)
  | heartbeat => cases hadvances
  | wait pool last hphase hpool hlast =>
    have hlink := hlinked.pool pool hpool
    rw [hphase] at hlink
    simp only [State.stepsLeft, hpool, hphase, Option.elim_some]
    exact add_lt_of_call (by simp [Phase.callsLeft]) (hlink.stepsLeft_wait hlast)
  | waited pool hphase hpool =>
    simp only [State.stepsLeft, hphase]
    exact add_lt_of_call (by simp [Phase.callsLeft]) (by omega)
  | clear pool last hphase hpool hlast =>
    have hlink := hlinked.pool pool hpool
    rw [hphase] at hlink
    simp only [State.stepsLeft, hpool, hphase, Option.elim_some]
    exact add_lt_of_call (by simp [Phase.callsLeft]) (hlink.stepsLeft_destroy le_rfl hlast)
  | destroyed unwinding pool hphase hpool =>
    simp only [State.stepsLeft, hpool, hphase, Option.elim_some, Option.elim_none]
    exact add_lt_of_call (by simp [Phase.callsLeft]) (by omega)
  | pool action pool last hpool hlast =>
    have hless := (hlinked.pool pool hpool).stepsLeft_lt hadvances hlast
    simp only [State.stepsLeft, hpool, Option.elim_some]
    exact Nat.add_lt_add_left hless _

/-- Heartbeats and spurious wake-ups set it back a little. -/
theorem State.stepsLeft_le (htests : tests < 2 ^ 31)
    (hreach : (mainMachine maxThreads tests).Reachable s)
    {action : Action (workerCount maxThreads)}
    (hstep : s.step maxThreads tests action = some next) :
    next.stepsLeft tests ≤ s.stepsLeft tests + (workerCount maxThreads + 9) := by
  cases hadvances : action.advances with
  | true => exact (State.stepsLeft_lt htests hreach hadvances hstep).le.trans (Nat.le_add_right _ _)
  | false =>
    have hlinked := State.linked_of_reachable htests hreach
    cases State.turn_of_step hstep with
    | heartbeat => exact Nat.le_add_right _ _
    | pool action pool last hpool hlast =>
      have hmore := (hlinked.pool pool hpool).stepsLeft_le hadvances hlast
      simp only [State.stepsLeft, hpool, Option.elim_some]
      omega
    | _ => cases hadvances

end runs

/-- The pool can do nothing by itself. -/
def Pool.Rests (pool : Pool workers) : Prop :=
  ∀ action, action.isProgress → pool.step action = none

section rest

variable {phase : Phase}

/-- A bounded pool that rests has no internal step. -/
theorem Pool.Rests.step_eq_none {pool : thread_pool.State workers Unit Nat Empty}
    (hrest : (Pool.bounded pool).Rests) (action : thread_pool.Action workers Unit Nat Empty)
    (hprogress : action.isProgress)
    (hinternal : (PoolAction.bounded action).isInternal (.bounded pool)) :
    pool.step action = none := by
  have hnone := hrest (.bounded action) hprogress
  rw [Pool.step, if_pos hinternal] at hnone
  exact Option.map_eq_none_iff.mp hnone

section bounded

variable {pool : thread_pool.State workers Unit Nat Empty}

/-- A linked pool that rests is at rest. -/
theorem BoundedLink.atRest (h : BoundedLink tests phase pool) (hrest : (Pool.bounded pool).Rests) :
    pool.AtRest := by
  have hstep := hrest.step_eq_none
  simp only [thread_pool.State.step, if_neg h.genuine.running] at hstep
  refine ⟨fun worker => ?_, fun worker task hphase hidle => ?_, fun client target => ?_,
    fun client => ?_⟩
  · exact hstep (.workerStep worker) rfl rfl
  · have hends := hstep (.returns worker) rfl rfl
    simp [thread_pool.State.endTask, hphase, hidle] at hends
  · exact hstep (.notify client target) rfl rfl
  · exact hstep (.testDone client) rfl rfl

/-- At rest, the main thread is back from `submit`. -/
theorem BoundedLink.caller_idle (h : BoundedLink tests phase pool)
    (hrest : (Pool.bounded pool).Rests) (hbetween : pool.clients (.caller ()) ≠ .blocked) :
    pool.clients (.caller ()) = .idle :=
  ((h.atRest hrest).idle_or_blocked (.caller ())).resolve_right hbetween

/-- At rest, it is back from `wait`. -/
theorem BoundedLink.waited (h : BoundedLink tests .waiting pool) (hpositive : 0 < workers)
    (hrest : (Pool.bounded pool).Rests) : pool.clients (.caller ()) = .idle := by
  have hreach := h.genuine.reachable (by simp)
  refine (h.atRest hrest).idle hreach hpositive (fun worker => by simp [h.tasks worker]) ?_ _
  by_contra hstopping
  have hstopped := h.genuine.orderly.stopped (by simpa using hstopping)
  rw [h.fits.1] at hstopped
  cases hstopped

/-- At rest, `~ThreadPool` is through. -/
theorem BoundedLink.destroyed {unwinding : Bool} (h : BoundedLink tests (.destroying unwinding) pool)
    (hpositive : 0 < workers) (hrest : (Pool.bounded pool).Rests) : pool.destructor = .destroyed := by
  obtain ⟨hlive, hcaller, _⟩ := h.fits
  obtain ⟨id, hreach, _⟩ := h.genuine
  have hreleased : ({ pool with nextTaskId := id } : thread_pool.State workers Unit Nat Empty).Released :=
    Internal.released h.tasks hcaller
  have hquiescent : (thread_pool.poolMachine workers Unit Nat Empty).Quiescent
      thread_pool.Action.isProgress { pool with nextTaskId := id } := by
    intro action hprogress
    refine Option.eq_none_iff_forall_ne_some.mpr fun next hnext => ?_
    have hcall (client : thread_pool.Client Unit workers) (function : Nat) :
        action ≠ .submit client function := by
      rintro rfl
      cases hprogress
    have hback := thread_pool.State.step_nextTaskId pool.nextTaskId hcall hnext
    have hnone := hrest.step_eq_none action hprogress (by
      cases action with
      | destructorStep => simpa [PoolAction.isInternal] using hlive
      | submit | wait => cases hprogress
      | _ => rfl)
    rw [hnone] at hback
    cases hback
  have hover := hreleased.destroyed_or_terminated hpositive hreach hquiescent
  exact hover.resolve_right h.genuine.running

end bounded

section unlimited

variable {pool : thread_pool.unlimited.State Nat}

/-- At rest, the threads that `wait` joins are through, and so is the loop over them. -/
theorem UnlimitedLink.caller_idle (h : UnlimitedLink tests phase pool)
    (hrest : (Pool.unlimited pool : Pool workers).Rests) : pool.caller = .idle := by
  have hstep (action : thread_pool.unlimited.Action Nat Empty) (hprogress : action.isProgress)
      (hinternal : (PoolAction.unlimited action).isInternal (.unlimited pool : Pool workers)) :
      pool.step action = none := by
    have hnone := hrest (.unlimited action) hprogress
    rw [Pool.step, if_pos hinternal] at hnone
    exact Option.map_eq_none_iff.mp hnone
  simp only [thread_pool.unlimited.State.step, h.running, Bool.false_eq_true, if_false] at hstep
  cases hcaller : pool.caller with
  | idle => rfl
  | joining index =>
    have hjoin := hstep .join rfl rfl
    cases hthread : pool.workerThreads[index]? with
    | none => simp [thread_pool.unlimited.State.join, hcaller, hthread] at hjoin
    | some thread =>
      have hinvoke := hstep (.invoke index) rfl rfl
      have hreturns := hstep (.returns index) rfl rfl
      cases hphase : thread.phase with
      | started => simp [hthread, hphase] at hinvoke
      | invoking => simp [hthread, hphase] at hreturns
      | finished => simp [thread_pool.unlimited.State.join, hcaller, hthread, hphase] at hjoin

end unlimited

variable {pool : Pool workers}

/-- The pool has a limit. -/
def Pool.isBounded : Pool workers → Bool
  | .bounded _ => true
  | .unlimited _ => false

/-- At rest, the pool takes the next call. -/
theorem Pool.Linked.submit_ne_none {index : Nat} (h : pool.Linked tests (.starting index))
    (hrest : pool.Rests) : pool.submit index ≠ none := by
  cases pool with
  | bounded pool =>
    have hidle := BoundedLink.caller_idle h hrest
      (by obtain ⟨_, hcaller | hcaller⟩ := BoundedLink.fits h <;> simp [hcaller])
    simp [Pool.submit, thread_pool.State.submit, thread_pool.State.mayCall, hidle]
  | unlimited pool =>
    have hidle := UnlimitedLink.caller_idle h hrest
    simp [Pool.submit, thread_pool.unlimited.State.step, UnlimitedLink.running h, hidle]

/-- The main thread can always call `wait`. -/
theorem Pool.Linked.wait_ne_none (h : pool.Linked tests .stopped) (hrest : pool.Rests) :
    pool.wait ≠ none := by
  cases pool with
  | bounded pool =>
    have hidle := BoundedLink.caller_idle h hrest
      (by obtain ⟨_, hcaller | hcaller⟩ := BoundedLink.fits h <;> simp [hcaller])
    simp [Pool.wait, thread_pool.State.step, thread_pool.State.mayCall, hidle,
      (BoundedLink.genuine h).running]
  | unlimited pool =>
    have hidle := UnlimitedLink.caller_idle h hrest
    simp [Pool.wait, thread_pool.unlimited.State.step, UnlimitedLink.running h, hidle]

/-- A pool that rests has let the main thread out of `wait`. -/
theorem Pool.Linked.waited_of_rest (h : pool.Linked tests .waiting)
    (hpositive : pool.isBounded → 0 < workers) (hrest : pool.Rests) : pool.waited := by
  cases pool with
  | bounded pool => simp [Pool.waited, BoundedLink.waited h (hpositive rfl) hrest]
  | unlimited pool => simp [Pool.waited, UnlimitedLink.caller_idle h hrest]

/-- The main thread can always call the destructor. -/
theorem Pool.Linked.destroy_ne_none (h : pool.Linked tests .clearing) : pool.destroy ≠ none := by
  cases pool with
  | bounded pool =>
    obtain ⟨hlive, hcaller, _⟩ := BoundedLink.fits h
    simp [Pool.destroy, thread_pool.State.destructorStep, hlive, hcaller]
  | unlimited pool =>
    have hidle : pool.caller = .idle := (UnlimitedLink.fits h).1
    simp [Pool.destroy, thread_pool.unlimited.State.step, UnlimitedLink.running h, hidle]

/-- A pool that rests in its destructor is destroyed. -/
theorem Pool.Linked.destroyed_of_rest {unwinding : Bool}
    (h : pool.Linked tests (.destroying unwinding)) (hpositive : pool.isBounded → 0 < workers)
    (hrest : pool.Rests) : pool.destroyed := by
  cases pool with
  | bounded pool => simp [Pool.destroyed, BoundedLink.destroyed h (hpositive rfl) hrest]
  | unlimited pool => simp [Pool.destroyed, UnlimitedLink.caller_idle h hrest]

end rest

section mode

variable {pool next : Pool workers}

/-- No step changes the mode. -/
theorem Pool.isBounded_step {action : PoolAction workers} (hstep : pool.step action = some next) :
    next.isBounded = pool.isBounded := by
  unfold Pool.step at hstep
  rw [Option.ite_none_right_eq_some] at hstep
  obtain ⟨_, hstep⟩ := hstep
  cases pool <;> cases action <;> first
    | cases hstep
    | obtain ⟨last, _, rfl⟩ := Option.map_eq_some_iff.mp hstep
      rfl

/-- The destructor does not change the mode. -/
theorem Pool.isBounded_destroy (hstep : pool.destroy = some next) :
    next.isBounded = pool.isBounded := by
  cases pool with
  | bounded pool =>
    simp only [Pool.destroy, Option.ite_none_right_eq_some, Option.map_eq_some_iff] at hstep
    obtain ⟨_, last, _, rfl⟩ := hstep
    rfl
  | unlimited pool =>
    obtain ⟨last, _, rfl⟩ := Option.map_eq_some_iff.mp hstep
    rfl

end mode

section runs

variable {s : State (workerCount maxThreads)}

/-- No step of its own is left for `main`. -/
def State.Rests (maxThreads : Option Int) (tests : Nat) (s : State (workerCount maxThreads)) : Prop :=
  ∀ action, action.isOwn → s.step maxThreads tests action = none

/-- With `main` its pool rests. -/
theorem State.Rests.pool (h : s.Rests maxThreads tests) {pool : Pool (workerCount maxThreads)}
    (hpool : s.testThreadPool = some pool) : pool.Rests := by
  intro action hprogress
  have hnone := h (.pool action) hprogress
  simpa [State.step, hpool] using hnone

/-- The pool has the mode that `maxThreads` asks for. -/
theorem State.isBounded_of_reachable (hreach : (mainMachine maxThreads tests).Reachable s) :
    ∀ pool, s.testThreadPool = some pool → pool.isBounded = maxThreads.isSome := by
  refine transition.Machine.Reachable.invariant
    (I := fun s => ∀ pool, s.testThreadPool = some pool → pool.isBounded = maxThreads.isSome)
    ?_ ?_ hreach
  · rintro s rfl
    rintro _ ⟨⟩
  · intro s action next h hstep
    cases State.turn_of_step hstep with
    | construct pool _ hpool =>
      rintro _ ⟨⟩
      cases maxThreads with
      | none =>
        cases hpool
        rfl
      | some limit =>
        simp only [construct, Option.ite_none_left_eq_some, Option.some.injEq] at hpool
        obtain ⟨_, rfl⟩ := hpool
        rfl
    | submit index pool last _ _ hpool hlast =>
      rintro _ ⟨⟩
      refine Eq.trans ?_ (h pool hpool)
      cases pool <;>
        · obtain ⟨_, _, rfl⟩ := Option.map_eq_some_iff.mp hlast
          rfl
    | submitThrows numbered index pool last _ _ hpool hlast =>
      rintro _ ⟨⟩
      obtain ⟨middle, hmiddle, hdestroy⟩ := Option.bind_eq_some_iff.mp hlast
      refine (Pool.isBounded_destroy hdestroy).trans (Eq.trans ?_ (h pool hpool))
      cases pool <;>
        · simp only [Pool.submitThrows, Option.ite_none_right_eq_some, Option.some.injEq] at hmiddle
          obtain ⟨_, rfl⟩ := hmiddle
          rfl
    | wait pool last _ hpool hlast =>
      rintro _ ⟨⟩
      refine Eq.trans ?_ (h pool hpool)
      cases pool <;>
        · obtain ⟨_, _, rfl⟩ := Option.map_eq_some_iff.mp hlast
          rfl
    | clear pool last _ hpool hlast =>
      rintro _ ⟨⟩
      exact (Pool.isBounded_destroy hlast).trans (h pool hpool)
    | pool action pool last hpool hlast =>
      rintro _ ⟨⟩
      exact (Pool.isBounded_step hlast).trans (h pool hpool)
    | destroyed => rintro _ ⟨⟩
    | constructThrows | started | heartbeat | stop | waited => exact h

/-- With a limit that allows for a thread, or none, `main` comes to rest only when it has
returned. -/
theorem State.Rests.isOver (h : s.Rests maxThreads tests) (htests : tests < 2 ^ 31)
    (hlimit : ∀ limit, maxThreads = some limit → 0 < limit)
    (hreach : (mainMachine maxThreads tests).Reachable s) : s.phase.isOver := by
  have hlinked := State.linked_of_reachable htests hreach
  have hpositive {pool : Pool (workerCount maxThreads)} (hpool : s.testThreadPool = some pool)
      (hbounded : pool.isBounded) : 0 < workerCount maxThreads := by
    rw [State.isBounded_of_reachable hreach pool hpool] at hbounded
    obtain ⟨limit, rfl⟩ := Option.isSome_iff_exists.mp hbounded
    have hless := hlimit limit rfl
    simp only [workerCount, Option.getD_some]
    omega
  cases hphase : s.phase with
  | returned | terminated => rfl
  | constructing =>
    have hnone := h .construct rfl
    simp only [State.step, hphase, Option.map_eq_none_iff] at hnone
    cases maxThreads with
    | none => cases hnone
    | some limit =>
      have hless := hlimit limit rfl
      rw [construct, if_neg (by omega)] at hnone
      cases hnone
  | starting index =>
    obtain ⟨pool, hpool, hlink⟩ := hlinked.exists_pool (by rw [hphase]; rfl)
    rw [hphase] at hlink
    have hindex : index ≤ tests := by
      have hsubmitted := hlinked.submitted
      rwa [hphase] at hsubmitted
    obtain hless | hall := Nat.lt_or_eq_of_le hindex
    · have hnone := h .submit rfl
      simp only [State.step, hphase, if_pos hless, State.call, hpool, Option.bind_some,
        Option.map_eq_none_iff] at hnone
      exact absurd hnone (hlink.submit_ne_none (h.pool hpool))
    · have hnone := h .started rfl
      simp only [State.step, hphase] at hnone
      rw [if_pos hall] at hnone
      cases hnone
  | heartbeat =>
    have hnone := h .stop rfl
    simp [State.step, hphase] at hnone
  | stopped =>
    obtain ⟨pool, hpool, hlink⟩ := hlinked.exists_pool (by rw [hphase]; rfl)
    rw [hphase] at hlink
    have hnone := h .wait rfl
    simp only [State.step, hphase, State.call, hpool, Option.bind_some,
      Option.map_eq_none_iff] at hnone
    exact absurd hnone (hlink.wait_ne_none (h.pool hpool))
  | waiting =>
    obtain ⟨pool, hpool, hlink⟩ := hlinked.exists_pool (by rw [hphase]; rfl)
    rw [hphase] at hlink
    have hnone := h .waited rfl
    have hwaited := hlink.waited_of_rest (hpositive hpool) (h.pool hpool)
    simp [State.step, hphase, hpool, hwaited] at hnone
  | clearing =>
    obtain ⟨pool, hpool, hlink⟩ := hlinked.exists_pool (by rw [hphase]; rfl)
    rw [hphase] at hlink
    have hnone := h .clear rfl
    simp only [State.step, hphase, State.call, hpool, Option.bind_some,
      Option.map_eq_none_iff] at hnone
    exact absurd hnone hlink.destroy_ne_none
  | destroying unwinding =>
    obtain ⟨pool, hpool, hlink⟩ := hlinked.exists_pool (by rw [hphase]; rfl)
    rw [hphase] at hlink
    have hnone := h .destroyed rfl
    have hdestroyed := hlink.destroyed_of_rest (hpositive hpool) (h.pool hpool)
    simp [State.step, hphase, hpool, hdestroyed] at hnone

end runs

section program

variable {ctx : TestContext}

/-- The steps of the startup: one for each entry of the registry and for each test, and
those that begin and leave its loops. -/
def Startup.stepsLeft : Startup → Nat
  | .logging => 21
  | .creating index => 9 - index + 11
  | .configuring index => 9 - index + 1
  | .running | .failed => 0

/-- A bound on the steps of `main`. -/
def Program.stepsLeft (self : Program workers) : Nat :=
  match self.startup with
  | .running => self.state.stepsLeft self.tests.length
  | .failed => 0
  | startup => startup.stepsLeft + callCost workers 9 * 16

/-- The steps of `main`, its pool and its tests. The others are heartbeats, spurious
wake-ups and exceptions. -/
def ProgramAction.isOwn : ProgramAction workers → Bool
  | .throws => false
  | .run action _ => action.isOwn
  | _ => true

/-- The own steps of `main` advance it. -/
theorem Action.advances_of_isOwn {action : Action workers} (h : action.isOwn) : action.advances := by
  cases action with
  | constructThrows | submitThrows => cases h
  | _ => exact h

/-- At its start `main` has the cost of sixteen calls before it, at most. -/
theorem State.stepsLeft_init {tests : Nat} (htests : tests ≤ 9) :
    ({} : State workers).stepsLeft tests ≤ callCost workers 9 * 16 := by
  have hcost : callCost workers tests ≤ callCost workers 9 := by
    simp only [callCost]
    omega
  simp only [State.stepsLeft, Phase.callsLeft, Option.elim_none, Nat.add_zero]
  exact Nat.mul_le_mul hcost (by omega)

/-- Each step of the startup is one fewer, and the loops are no longer than the registry. -/
theorem Program.stepsLeft_startup {self next : Program (workerCount ctx.maxThreads)}
    (h : self.Sound ctx) {action : ProgramAction (workerCount ctx.maxThreads)}
    (hstartup : self.startup ≠ .running) (hstep : self.step ctx action = some next) :
    next.stepsLeft < self.stepsLeft := by
  have hnames := length_selected_le ctx
  cases hself : self.startup with
  | logging =>
    cases action with
    | makeLogger | throws =>
      simp only [Program.step, hself, Option.some.injEq] at hstep
      subst hstep
      simp only [Program.stepsLeft, hself, Startup.stepsLeft]
      omega
    | create | configure | run => simp [Program.step, hself] at hstep
  | creating index =>
    cases action with
    | create =>
      simp only [Program.step, hself] at hstep
      cases hname : k_registry[index]? with
      | none =>
        simp only [hname, Option.some.injEq] at hstep
        subst hstep
        simp only [Program.stepsLeft, hself, Startup.stepsLeft]
        omega
      | some testName =>
        have hless : index < 9 := (List.getElem?_eq_some_iff.mp hname).1
        simp only [hname] at hstep
        split at hstep <;>
        · cases hstep
          simp only [Program.stepsLeft, hself, Startup.stepsLeft]
          omega
    | throws =>
      simp only [Program.step, hself, Option.ite_none_right_eq_some, Option.some.injEq] at hstep
      obtain ⟨_, rfl⟩ := hstep
      simp only [Program.stepsLeft, Program.fail, hself, Startup.stepsLeft]
      omega
    | makeLogger | configure | run => simp [Program.step, hself] at hstep
  | configuring index =>
    simp only [Program.Sound, hself] at h
    obtain ⟨htests, _, hstate⟩ := h
    have hlength := congrArg List.length htests
    rw [List.length_mapIdx] at hlength
    cases action with
    | configure =>
      simp only [Program.step, hself] at hstep
      cases htest : self.tests[index]? with
      | none =>
        simp only [htest, Option.some.injEq] at hstep
        subst hstep
        have hinit : ({} : State (workerCount ctx.maxThreads)).stepsLeft self.tests.length ≤
            callCost (workerCount ctx.maxThreads) 9 * 16 :=
          State.stepsLeft_init (hlength.trans_le hnames)
        simp only [Program.stepsLeft, hself, Startup.stepsLeft, hstate]
        omega
      | some test =>
        have hless := (List.getElem?_eq_some_iff.mp htest).1
        simp only [htest, Option.some.injEq] at hstep
        subst hstep
        simp only [Program.stepsLeft, hself, Startup.stepsLeft]
        omega
    | throws =>
      simp only [Program.step, hself, Option.ite_none_right_eq_some, Option.some.injEq] at hstep
      obtain ⟨_, rfl⟩ := hstep
      simp only [Program.stepsLeft, Program.fail, hself, Startup.stepsLeft]
      omega
    | makeLogger | create | run => simp [Program.step, hself] at hstep
  | running => exact absurd hself hstartup
  | failed => cases action <;> simp [Program.step, hself] at hstep

/-- A step of `main` after the startup. -/
theorem Program.Sound.running_step {self next : Program (workerCount ctx.maxThreads)}
    (h : self.Sound ctx) (hstartup : self.startup = .running)
    {action : Action (workerCount ctx.maxThreads)} {threw : Bool}
    (hstep : self.step ctx (.run action threw) = some next) :
    self.tests.length < 2 ^ 31 ∧
      (mainMachine ctx.maxThreads self.tests.length).Reachable self.state ∧
      self.stepsLeft = self.state.stepsLeft self.tests.length ∧
      ∃ state, self.state.step ctx.maxThreads self.tests.length action = some state ∧
        next.stepsLeft = state.stepsLeft self.tests.length := by
  obtain ⟨htests, hreach, _⟩ := h.running hstartup
  obtain ⟨_, state, hstate, rfl⟩ := Program.run_eq_some_iff.mp hstep
  refine ⟨htests, hreach, by simp only [Program.stepsLeft, hstartup], state, hstate, ?_⟩
  simp only [Program.stepsLeft, hstartup, List.length_mapIdx]

/-- Every step of its own brings the end of `main` nearer, and the others set it back by a
bounded amount. -/
theorem usesUp (ctx : TestContext) : (programMachine ctx).UsesUp ProgramAction.isOwn
    Program.stepsLeft (workerCount ctx.maxThreads + 9) := by
  constructor
  · intro self action next hreach hown hstep
    have hsound := Program.sound_of_reachable hreach
    by_cases hstartup : self.startup = .running
    · cases action with
      | run action threw =>
        obtain ⟨htests, hmain, hleft, state, hstate, hnext⟩ := hsound.running_step hstartup hstep
        rw [hleft, hnext]
        exact State.stepsLeft_lt htests hmain (Action.advances_of_isOwn hown) hstate
      | _ => simp [programMachine, Program.step, hstartup] at hstep
    · exact Program.stepsLeft_startup hsound hstartup hstep
  · intro self action next hreach _ hstep
    have hsound := Program.sound_of_reachable hreach
    by_cases hstartup : self.startup = .running
    · cases action with
      | run action threw =>
        obtain ⟨htests, hmain, hleft, state, hstate, hnext⟩ := hsound.running_step hstartup hstep
        rw [hleft, hnext]
        exact State.stepsLeft_le htests hmain hstate
      | _ => simp [programMachine, Program.step, hstartup] at hstep
    · exact (Program.stepsLeft_startup hsound hstartup hstep).le.trans (Nat.le_add_right _ _)

/-- `main` has ended: it has returned, or a thread it could not create has terminated it. -/
def Program.isOver (self : Program workers) : Bool :=
  self.exitCode.isSome || self.state.phase = .terminated

/-- Where no step is left, `main` has ended. -/
theorem Program.isOver_of_quiescent {self : Program (workerCount ctx.maxThreads)}
    (hlimit : ∀ limit, ctx.maxThreads = some limit → 0 < limit)
    (hreach : (programMachine ctx).Reachable self)
    (hrest : (programMachine ctx).Quiescent ProgramAction.isOwn self) : self.isOver := by
  have hsound := Program.sound_of_reachable hreach
  cases hstartup : self.startup with
  | logging =>
    have hnone := hrest .makeLogger rfl
    simp [programMachine, Program.step, hstartup] at hnone
  | creating index =>
    have hnone := hrest .create rfl
    simp only [programMachine, Program.step, hstartup] at hnone
    split at hnone
    · split at hnone <;> cases hnone
    · cases hnone
  | configuring index =>
    have hnone := hrest .configure rfl
    simp only [programMachine, Program.step, hstartup] at hnone
    split at hnone <;> cases hnone
  | failed => simp [Program.isOver, Program.exitCode, hstartup]
  | running =>
    obtain ⟨htests, hmain, _⟩ := hsound.running hstartup
    have hstill : self.state.Rests ctx.maxThreads self.tests.length := by
      intro action hown
      have hnone := hrest (.run action false) hown
      simpa [programMachine, Program.step, hstartup] using hnone
    have hover := hstill.isOver htests hlimit hmain
    cases hphase : self.state.phase <;>
      simp_all [Phase.isOver, Program.isOver, Program.exitCode]

end program

end spdlogger.main
