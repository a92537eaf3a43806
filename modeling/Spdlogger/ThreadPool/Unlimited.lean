import Mathlib.Data.List.Basic
import Mathlib.Algebra.Order.Group.Nat
import Spdlogger.Library.Machine

namespace spdlogger.thread_pool.unlimited

/-- Where a thread stands, and the task it was started for. -/
inductive ThreadPhase where
  | started
  | invoking
  | finished
  deriving DecidableEq, Repr

/-- An entry of `workerThreads_`. The number is that of its submission. -/
structure Thread (Fn : Type) where
  id : Nat
  function : Fn
  phase : ThreadPhase := .started
  deriving DecidableEq

/-- Where the thread that uses the pool stands: `joining index` is in the loop of `wait`. -/
inductive CallerPhase where
  | idle
  | joining (index : Nat)
  deriving DecidableEq, Repr

/-- The last four fields are history: the functions submitted, the tasks invoked
and finished, and how many calls of `wait` came back. -/
structure State (Fn : Type) where
  workerThreads : List (Thread Fn) := []
  caller : CallerPhase := .idle
  terminated : Bool := false
  submitted : List Fn := []
  invoked : List Nat := []
  finished : List Nat := []
  waits : Nat := 0

/-- `invoke`, `returns` and `throws` are steps of the thread with that index. -/
inductive Action (Fn Exception : Type) where
  | submit (function : Fn)
  | wait
  | join
  | invoke (index : Nat)
  | returns (index : Nat)
  | throws (index : Nat) (exception : Exception)

variable {Fn Exception : Type}

/-- The state with one thread moved. -/
def State.setPhase (s : State Fn) (index : Nat) (thread : Thread Fn) (phase : ThreadPhase) :
    State Fn :=
  { s with workerThreads := s.workerThreads.set index { thread with phase } }

section setPhase

variable (s : State Fn) (index : Nat) (thread : Thread Fn) (phase : ThreadPhase)

@[simp] theorem State.caller_setPhase : (s.setPhase index thread phase).caller = s.caller := rfl

@[simp] theorem State.submitted_setPhase :
    (s.setPhase index thread phase).submitted = s.submitted := rfl

@[simp] theorem State.invoked_setPhase : (s.setPhase index thread phase).invoked = s.invoked := rfl

@[simp] theorem State.finished_setPhase : (s.setPhase index thread phase).finished = s.finished := rfl

@[simp] theorem State.waits_setPhase : (s.setPhase index thread phase).waits = s.waits := rfl

@[simp] theorem State.terminated_setPhase :
    (s.setPhase index thread phase).terminated = s.terminated := rfl

end setPhase

/-- The loop of `wait` and what follows it. -/
def State.join (s : State Fn) : Option (State Fn) :=
  match s.caller with
  | .idle => none
  | .joining index =>
    match s.workerThreads[index]? with
    | some thread =>
      if thread.phase = .finished then some { s with caller := .joining (index + 1) } else none
    | none => some { s with workerThreads := [], caller := .idle, waits := s.waits + 1 }

/-- One step of the pool, unless the process is gone. An exception that leaves
the function of a thread terminates it. -/
def State.step (s : State Fn) (action : Action Fn Exception) : Option (State Fn) :=
  if s.terminated then none
  else
    match action with
    | .submit function =>
      if s.caller = .idle then
        some { s with
          workerThreads := s.workerThreads ++ [⟨s.submitted.length, function, .started⟩]
          submitted := s.submitted ++ [function] }
      else none
    | .wait => if s.caller = .idle then some { s with caller := .joining 0 } else none
    | .join => s.join
    | .invoke index =>
      match s.workerThreads[index]? with
      | some thread =>
        if thread.phase = .started then
          some { s.setPhase index thread .invoking with invoked := s.invoked ++ [thread.id] }
        else none
      | none => none
    | .returns index =>
      match s.workerThreads[index]? with
      | some thread =>
        if thread.phase = .invoking then
          some { s.setPhase index thread .finished with finished := s.finished ++ [thread.id] }
        else none
      | none => none
    | .throws index _ =>
      match s.workerThreads[index]? with
      | some thread => if thread.phase = .invoking then some { s with terminated := true } else none
      | none => none

/-- The steps of the pool. -/
inductive State.Move (s : State Fn) : Action Fn Exception → State Fn → Prop where
  | submit (function : Fn) (hidle : s.caller = .idle) :
      Move s (.submit function) { s with
        workerThreads := s.workerThreads ++ [⟨s.submitted.length, function, .started⟩]
        submitted := s.submitted ++ [function] }
  | wait (hidle : s.caller = .idle) : Move s .wait { s with caller := .joining 0 }
  | join (index : Nat) (thread : Thread Fn) (hcaller : s.caller = .joining index)
      (hthread : s.workerThreads[index]? = some thread) (hphase : thread.phase = .finished) :
      Move s .join { s with caller := .joining (index + 1) }
  | clear (index : Nat) (hcaller : s.caller = .joining index)
      (hthread : s.workerThreads[index]? = none) :
      Move s .join { s with workerThreads := [], caller := .idle, waits := s.waits + 1 }
  | invoke (index : Nat) (thread : Thread Fn) (hthread : s.workerThreads[index]? = some thread)
      (hphase : thread.phase = .started) :
      Move s (.invoke index) { s.setPhase index thread .invoking with
        invoked := s.invoked ++ [thread.id] }
  | returns (index : Nat) (thread : Thread Fn) (hthread : s.workerThreads[index]? = some thread)
      (hphase : thread.phase = .invoking) :
      Move s (.returns index) { s.setPhase index thread .finished with
        finished := s.finished ++ [thread.id] }
  | throws (index : Nat) (exception : Exception) (thread : Thread Fn)
      (hthread : s.workerThreads[index]? = some thread) (hphase : thread.phase = .invoking) :
      Move s (.throws index exception) { s with terminated := true }

theorem State.Move.of_join {s next : State Fn} (hstep : s.join = some next) :
    s.Move (.join : Action Fn Exception) next := by
  unfold State.join at hstep
  cases hcaller : s.caller with
  | idle => simp [hcaller] at hstep
  | joining index =>
    cases hthread : s.workerThreads[index]? with
    | some thread =>
      simp only [hcaller, hthread, Option.ite_none_right_eq_some, Option.some.injEq] at hstep
      obtain ⟨hphase, rfl⟩ := hstep
      exact .join index thread hcaller hthread hphase
    | none =>
      simp only [hcaller, hthread, Option.some.injEq] at hstep
      subst hstep
      exact .clear index hcaller hthread

/-- Every step is one of the moves, of a process that is still there. -/
theorem State.move_of_step {s next : State Fn} {action : Action Fn Exception}
    (hstep : s.step action = some next) : ¬ s.terminated ∧ s.Move action next := by
  simp only [State.step, Option.ite_none_left_eq_some] at hstep
  obtain ⟨hrunning, hstep⟩ := hstep
  refine ⟨hrunning, ?_⟩
  cases action with
  | submit function =>
    simp only [Option.ite_none_right_eq_some, Option.some.injEq] at hstep
    obtain ⟨hidle, rfl⟩ := hstep
    exact .submit function hidle
  | wait =>
    simp only [Option.ite_none_right_eq_some, Option.some.injEq] at hstep
    obtain ⟨hidle, rfl⟩ := hstep
    exact .wait hidle
  | join => exact .of_join hstep
  | invoke index | returns index | throws index exception =>
    cases hthread : s.workerThreads[index]? with
    | none => simp [hthread] at hstep
    | some thread =>
      simp only [hthread, Option.ite_none_right_eq_some, Option.some.injEq] at hstep
      obtain ⟨hphase, rfl⟩ := hstep
      constructor
      · exact hthread
      · exact hphase

/-- A thread that is through stays through, and only a submission adds one. -/
theorem State.finished_step {s next : State Fn} {action : Action Fn Exception}
    (h : ∀ thread ∈ s.workerThreads, thread.phase = .finished)
    (hcall : ∀ function, action ≠ .submit function) (hstep : s.step action = some next) :
    ∀ thread ∈ next.workerThreads, thread.phase = .finished := by
  obtain ⟨_, hmove⟩ := State.move_of_step hstep
  cases hmove with
  | submit function => exact absurd rfl (hcall function)
  | wait | join => exact h
  | clear => exact nofun
  | invoke _ thread hthread hphase
  | returns _ thread hthread hphase
  | throws _ _ thread hthread hphase =>
    have hfinished := h thread (List.mem_of_getElem? hthread)
    rw [hphase] at hfinished
    cases hfinished

/-- A pool without a limit, used by one thread. -/
def poolMachine (Fn Exception : Type) : transition.Machine (State Fn) (Action Fn Exception) where
  init s := s = {}
  step := State.step

end spdlogger.thread_pool.unlimited
