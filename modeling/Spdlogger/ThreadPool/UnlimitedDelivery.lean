import Mathlib.Algebra.GroupWithZero.Nat
import Spdlogger.ThreadPool.UnlimitedRound

namespace spdlogger.thread_pool.unlimited

variable {Exception : Type}

/-- The steps the thread has left. -/
def ThreadPhase.remaining : ThreadPhase → Nat
  | .started => 2
  | .invoking => 1
  | .finished => 0

/-- The joins that a call of `wait` has left. -/
def CallerPhase.remaining (threads : Nat) : CallerPhase → Nat
  | .idle => 0
  | .joining index => threads - index + 1

/-- The calls of `submit` and `wait` the client has still to make. -/
def State.callsLeft (tasks : List (Option Exception)) (s : State (Option Exception)) : Nat :=
  tasks.length - s.submitted.length + if s.caller = .idle ∧ s.waits = 0 then 1 else 0

/-- A bound on the steps left in the round. A call adds no more than a loop over
the threads, and a terminated process has none left. -/
def State.remaining (tasks : List (Option Exception)) (s : State (Option Exception)) : Nat :=
  if s.terminated then 0
  else 1 + (s.workerThreads.map fun thread => thread.phase.remaining).sum +
    s.caller.remaining s.workerThreads.length + (tasks.length + 3) * s.callsLeft tasks

/-- A step of one thread brings it on by one. -/
theorem State.sum_setPhase {Fn : Type} {s : State Fn} {index : Nat}
    {thread : Thread Fn} (hthread : s.workerThreads[index]? = some thread)
    (phase : ThreadPhase) (hphase : phase.remaining < thread.phase.remaining) :
    ((s.setPhase index thread phase).workerThreads.map fun thread => thread.phase.remaining).sum <
      (s.workerThreads.map fun thread => thread.phase.remaining).sum := by
  obtain ⟨before, after, _, hsplit, hset⟩ := State.setPhase_split hthread
  rw [hset, hsplit]
  simp only [List.map_append, List.map_cons, List.sum_append, List.sum_cons]
  omega

/-- Moving a thread leaves their number. -/
theorem State.length_setPhase {Fn : Type} (s : State Fn) (index : Nat)
    (thread : Thread Fn) (phase : ThreadPhase) :
    (s.setPhase index thread phase).workerThreads.length = s.workerThreads.length :=
  List.length_set

variable {tasks : List (Option Exception)}

/-- There are no more threads than tasks. -/
theorem State.Booked.length_le {s : State (Option Exception)} (h : s.Booked tasks) :
    s.workerThreads.length ≤ tasks.length := by
  by_cases hwaits : s.waits = 0
  · have hlength := congrArg List.length (h.running hwaits).functions
    rw [List.length_map] at hlength
    rw [hlength]
    exact h.taken.length_le
  · simp [(h.ended hwaits).cleared]

/-- The vector of threads shrinks only to nothing, and a call is made once. -/
theorem State.remaining_lt {s next : State (Option Exception)} (hrunning : ¬ s.terminated)
    (hless : (next.workerThreads.map fun thread => thread.phase.remaining).sum +
        next.caller.remaining next.workerThreads.length +
        (tasks.length + 3) * next.callsLeft tasks <
      (s.workerThreads.map fun thread => thread.phase.remaining).sum +
        s.caller.remaining s.workerThreads.length + (tasks.length + 3) * s.callsLeft tasks) :
    next.remaining tasks < s.remaining tasks := by
  unfold State.remaining
  rw [if_neg hrunning]
  split <;> omega

variable [DecidableEq Exception]

omit [DecidableEq Exception] in
/-- A step of one thread uses up one of the steps left. -/
theorem State.remaining_setPhase {s next : State (Option Exception)} (hrunning : ¬ s.terminated)
    {index : Nat} {thread : Thread (Option Exception)}
    (hthread : s.workerThreads[index]? = some thread) {phase : ThreadPhase}
    (hphase : phase.remaining < thread.phase.remaining)
    (hthreads : next.workerThreads = (s.setPhase index thread phase).workerThreads)
    (hcaller : next.caller = s.caller) (hcalls : next.callsLeft tasks = s.callsLeft tasks) :
    next.remaining tasks < s.remaining tasks := by
  have hsum := s.sum_setPhase hthread phase hphase
  apply State.remaining_lt hrunning
  rw [hcalls, hcaller, hthreads, s.length_setPhase]
  exact Nat.add_lt_add_right (Nat.add_lt_add_right hsum _) _

/-- Each step of the round lowers the bound. -/
theorem State.remaining_step {s next : State (Option Exception)} (h : s.Booked tasks)
    {action : Action (Option Exception) Exception} (hallowed : allowed tasks s action = true)
    (hrunning : ¬ s.terminated) (hmove : s.Move action next) :
    next.remaining tasks < s.remaining tasks := by
  have hlength := h.length_le
  cases hmove with
  | submit function hidle =>
    simp only [allowed, decide_eq_true_eq] at hallowed
    obtain ⟨hlt, _⟩ := List.getElem?_eq_some_iff.mp hallowed
    have hsupply : tasks.length - s.submitted.length =
        tasks.length - (s.submitted.length + 1) + 1 := by omega
    apply State.remaining_lt hrunning
    simp only [State.callsLeft, hidle, hsupply, CallerPhase.remaining, List.map_append,
      List.map_cons, List.map_nil, List.sum_append, List.sum_cons, List.sum_nil, List.length_append,
      List.length_singleton, Nat.mul_add, Nat.mul_one]
    have hstarted : ThreadPhase.started.remaining = 2 := rfl
    omega
  | wait hidle =>
    simp only [allowed, Bool.and_eq_true, decide_eq_true_eq] at hallowed
    apply State.remaining_lt hrunning
    simp only [State.callsLeft, hidle, hallowed.2, hallowed.1, CallerPhase.remaining, reduceCtorEq,
      false_and, true_and, if_true, if_false, Nat.sub_self, Nat.zero_add, Nat.mul_one, Nat.mul_zero,
      Nat.sub_zero]
    omega
  | join index thread hcaller hthread =>
    have hwaits := (h.joining index hcaller).1
    obtain ⟨hlt, _⟩ := List.getElem?_eq_some_iff.mp hthread
    apply State.remaining_lt hrunning
    simp only [State.callsLeft, hcaller, CallerPhase.remaining, reduceCtorEq, false_and, if_false]
    omega
  | clear index hcaller =>
    have hwaits := (h.joining index hcaller).1
    apply State.remaining_lt hrunning
    simp [State.callsLeft, hcaller, CallerPhase.remaining]
  | invoke index thread hthread hphase =>
    have hless : ThreadPhase.invoking.remaining < thread.phase.remaining := by
      simp [hphase, ThreadPhase.remaining]
    exact State.remaining_setPhase hrunning hthread hless rfl rfl rfl
  | returns index thread hthread hphase =>
    have hless : ThreadPhase.finished.remaining < thread.phase.remaining := by
      simp [hphase, ThreadPhase.remaining]
    exact State.remaining_setPhase hrunning hthread hless rfl rfl rfl
  | throws =>
    unfold State.remaining
    rw [if_neg hrunning, if_pos rfl]
    omega

/-- The round uses up its steps. -/
theorem usesUp : (round tasks).UsesUp (fun _ => true) (State.remaining tasks) 0 := by
  refine ⟨fun s action next hreach _ hstep => ?_, by simp⟩
  obtain ⟨hallowed, hstep⟩ := transition.Machine.restrict_step_iff.mp hstep
  obtain ⟨hrunning, hmove⟩ := State.move_of_step hstep
  exact State.remaining_step (State.booked_of_reachable hreach) hallowed hrunning hmove

/-- Only a throw terminates the process. -/
theorem State.running_step (hreturn : ∀ task ∈ tasks, task = none)
    {s next : State (Option Exception)} (hreach : (round tasks).Reachable s)
    (hrunning : s.terminated = false) {action : Action (Option Exception) Exception}
    (hstep : (round tasks).step s action = some next) : next.terminated = false := by
  have hbooked := State.booked_of_reachable hreach
  obtain ⟨hallowed, hstep⟩ := transition.Machine.restrict_step_iff.mp hstep
  obtain ⟨_, hmove⟩ := State.move_of_step hstep
  cases hmove with
  | throws index exception thread hthread =>
    have hwaits := hbooked.waits_eq_zero hthread
    have hfunction : thread.function ∈ tasks := by
      refine hbooked.taken.subset ?_
      rw [← (hbooked.running hwaits).functions]
      exact List.mem_map_of_mem (List.mem_of_getElem? hthread)
    simp only [allowed, hthread, Option.any_some, decide_eq_true_eq] at hallowed
    have hnone := hreturn _ hfunction
    rw [hallowed] at hnone
    cases hnone
  | _ => exact hrunning

/-- With tasks that all return, the round stops only when `wait` is back. -/
theorem returned_of_quiescent (hreturn : ∀ task ∈ tasks, task = none)
    {s : State (Option Exception)} (hreach : (round tasks).Reachable s)
    (hrest : (round tasks).Quiescent (fun _ => true) s) (hrunning : s.terminated = false) :
    s.waits ≠ 0 := by
  intro hwaits
  have hbooked := State.booked_of_reachable hreach
  have hrunningBooks := hbooked.running hwaits
  have hnone (action : Action (Option Exception) Exception) (hallowed : allowed tasks s action) :
      s.step action = none := by
    have hstep := hrest action rfl
    simpa [round, transition.Machine.restrict, hallowed, poolMachine] using hstep
  simp only [State.step, hrunning, Bool.false_eq_true, if_false] at hnone
  have hfinished : ∀ thread ∈ s.workerThreads, thread.phase = .finished := by
    intro thread hmem
    obtain ⟨index, hlt, hget⟩ := List.getElem_of_mem hmem
    have hthread : s.workerThreads[index]? = some thread := List.getElem?_eq_some_iff.mpr ⟨hlt, hget⟩
    have hfunction : thread.function = none := by
      refine hreturn _ (hbooked.taken.subset ?_)
      rw [← hrunningBooks.functions]
      exact List.mem_map_of_mem hmem
    cases hphase : thread.phase with
    | finished => rfl
    | started => simpa [hthread, hphase] using hnone (.invoke index) rfl
    | invoking =>
      have hstep := hnone (.returns index) (by simp [allowed, hthread, hfunction])
      simp [hthread, hphase] at hstep
  cases hcaller : s.caller with
  | idle =>
    by_cases hlength : s.submitted.length = tasks.length
    · have hstep := hnone .wait (by simp [allowed, hlength, hwaits])
      simp [hcaller] at hstep
    · have hlt : s.submitted.length < tasks.length :=
        lt_of_le_of_ne hbooked.taken.length_le hlength
      have hstep := hnone (.submit tasks[s.submitted.length]) (by simp [allowed, hlt])
      simp [hcaller] at hstep
  | joining index =>
    have hstep := hnone .join rfl
    cases hthread : s.workerThreads[index]? with
    | some thread =>
      have hphase := hfinished thread (List.mem_of_getElem? hthread)
      simp [State.join, hcaller, hthread, hphase] at hstep
    | none => simp [State.join, hcaller, hthread] at hstep

/-- A thread whose function throws is the end of the process, so the round works
out exactly when every task returns. -/
theorem delivers_iff :
    Delivers (round tasks) (fun _ => false) State.observe tasks ↔ ∀ task ∈ tasks, task = none := by
  have hover (s : State (Option Exception)) (hreach : (round tasks).Reachable s)
      (hwaits : s.waits ≠ 0) : s.Over tasks := (State.booked_of_reachable hreach).ended hwaits
  constructor
  · intro hdelivers
    obtain ⟨schedule, last, _, hrun, hrest⟩ :=
      usesUp.exists_quiescent (.init (M := round tasks) (s := {}) rfl)
    have hreach : (round tasks).Reachable last := transition.Machine.Reachable.run (.init rfl) hrun
    have hreturned := hdelivers.returns last hreach hrest
    refine (hover last hreach fun hwaits => ?_).returned
    simp [State.observe, hwaits] at hreturned
  · intro hreturn
    have hsafe (s : State (Option Exception)) (hreach : (round tasks).Reachable s) :
        s.terminated = false := by
      refine transition.Machine.ReachableBy.invariant (I := fun s => s.terminated = false)
        ?_ ?_ hreach
      · rintro s rfl
        rfl
      · intro s action next hs hrunning _ hstep
        exact State.running_step hreturn hs.reachable hrunning hstep
    refine ⟨⟨_, _, usesUp⟩, ?_, ?_⟩
    · intro s hreach hrest hreturned
      have hwaits := returned_of_quiescent hreturn hreach hrest (hsafe s hreach)
      simp [State.observe, hwaits] at hreturned
    · intro s result hreach hresult
      have hwaits : s.waits ≠ 0 := by
        intro hwaits
        simp [State.observe, hwaits] at hresult
      have hbooks := hover s hreach hwaits
      simp only [State.observe, if_neg hwaits, Option.some.injEq] at hresult
      subst hresult
      refine ⟨hbooks.invoked, hbooks.finished, ?_, by simp⟩
      simpa using hreturn

end spdlogger.thread_pool.unlimited
