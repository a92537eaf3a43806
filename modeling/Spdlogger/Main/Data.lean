import Spdlogger.ThreadPool.Step
import Spdlogger.ThreadPool.Unlimited

namespace spdlogger.main

/-- `testThreadPool` in its two modes. The handlers in a task let no exception out. -/
inductive Pool (workers : Nat) where
  | bounded (pool : thread_pool.State workers Unit Nat Empty)
  | unlimited (pool : thread_pool.unlimited.State Nat)

/-- A step of the pool in either of its modes. -/
inductive PoolAction (workers : Nat) where
  | bounded (action : thread_pool.Action workers Unit Nat Empty)
  | unlimited (action : thread_pool.unlimited.Action Nat Empty)

/-- Where the main thread stands. `starting index` is the loop over the tests, and
`destroying unwinding` is inside `~ThreadPool`, at the end of the block or for an
exception that leaves it. -/
inductive Phase where
  | constructing
  | starting (index : Nat)
  | heartbeat
  | stopped
  | waiting
  | clearing
  | destroying (unwinding : Bool)
  | returned (code : Nat)
  | terminated
  deriving DecidableEq, Repr

/-- `main` from the construction of its pool on. `activeTestsCount` is counted with each
`submit` and each end of a task. -/
structure State (workers : Nat) where
  phase : Phase := .constructing
  stop : Bool := false
  activeTestsCount : Int := 0
  testThreadPool : Option (Pool workers) := none

variable {workers : Nat}

/-- The number of workers `ctx.maxThreads` asks for. -/
def workerCount (maxThreads : Option Int) : Nat := (maxThreads.getD 0).toNat

/-- The pool the constructor leaves. A negative limit is too much for `reserve`. -/
def construct (maxThreads : Option Int) : Option (Pool (workerCount maxThreads)) :=
  match maxThreads with
  | none => some (.unlimited {})
  | some limit => if limit < 0 then none else some (.bounded {})

/-- A task whose function is the index of its test is submitted. -/
def Pool.submit (index : Nat) : Pool workers → Option (Pool workers)
  | .bounded pool => (pool.submit (.caller ()) index).map .bounded
  | .unlimited pool =>
    (pool.step (.submit index : thread_pool.unlimited.Action Nat Empty)).map .unlimited

/-- A `submit` that throws leaves nothing behind, except that the bounded pool may
have taken a number for the task. -/
def Pool.submitThrows (numbered : Bool) : Pool workers → Option (Pool workers)
  | .bounded pool =>
    if pool.mayCall (.caller ()) then
      some (.bounded { pool with
        nextTaskId := if numbered then Int.bmod (pool.nextTaskId + 1) (2 ^ 32) else pool.nextTaskId })
    else none
  | .unlimited pool => if pool.caller = .idle then some (.unlimited pool) else none

/-- `wait` is called. -/
def Pool.wait : Pool workers → Option (Pool workers)
  | .bounded pool =>
    (pool.step (.wait (.caller ()) : thread_pool.Action workers Unit Nat Empty)).map .bounded
  | .unlimited pool => (pool.step (.wait : thread_pool.unlimited.Action Nat Empty)).map .unlimited

/-- Whether the call of `wait` is back. -/
def Pool.waited : Pool workers → Bool
  | .bounded pool => pool.clients (.caller ()) = .idle
  | .unlimited pool => pool.caller = .idle

/-- `~ThreadPool` begins, with its own `wait`. -/
def Pool.destroy : Pool workers → Option (Pool workers)
  | .bounded pool =>
    if pool.destructor = .live ∧ pool.clients (.caller ()) = .idle then
      pool.destructorStep.map .bounded
    else none
  | .unlimited pool => (pool.step (.wait : thread_pool.unlimited.Action Nat Empty)).map .unlimited

/-- `~ThreadPool` is through. -/
def Pool.destroyed : Pool workers → Bool
  | .bounded pool => pool.destructor = .destroyed
  | .unlimited pool => pool.caller = .idle

/-- The steps the pool takes while the main thread is elsewhere or inside it. -/
def PoolAction.isInternal (pool : Pool workers) : PoolAction workers → Bool
  | .bounded (.submit _ _) | .bounded (.wait _) => false
  | .bounded .destructorStep =>
    match pool with
    | .bounded pool => pool.destructor ≠ .live
    | .unlimited _ => false
  | .unlimited (.submit _) | .unlimited .wait => false
  | _ => true

/-- A step of the pool that `main` does not take. -/
def Pool.step (action : PoolAction workers) (pool : Pool workers) : Option (Pool workers) :=
  if action.isInternal pool then
    match pool, action with
    | .bounded pool, .bounded action => (pool.step action).map .bounded
    | .unlimited pool, .unlimited action => (pool.step action).map .unlimited
    | _, _ => none
  else none

/-- A task ends by counting itself out. -/
def PoolAction.endsTask : PoolAction workers → Bool
  | .bounded (.returns _) | .unlimited (.returns _) => true
  | _ => false

end spdlogger.main
