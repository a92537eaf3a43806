import Spdlogger.Main.Data

namespace spdlogger.main

/-- `constructThrows created` is a failure to create a worker after that many of
them, and `stop` is the end of the heartbeat loop with the store that follows it. -/
inductive Action (workers : Nat) where
  | construct
  | constructThrows (created : Nat)
  | submit
  | submitThrows (numbered : Bool)
  | started
  | heartbeat
  | stop
  | wait
  | waited
  | clear
  | destroyed
  | pool (action : PoolAction workers)

variable {workers : Nat}

/-- The main thread calls its pool and goes on to the next phase. -/
def State.call (s : State workers) (next : Phase) (f : Pool workers → Option (Pool workers)) :
    Option (State workers) :=
  (s.testThreadPool.bind f).map fun pool => { s with phase := next, testThreadPool := some pool }

/-- One step of `main` or of its pool. Two pairs of statements are one step each: the
`fetch_add` goes with the `submit` after it, and the `fetch_sub` with the end of the task.
`Heartbeat` takes them apart. -/
def State.step (maxThreads : Option Int) (tests : Nat) (s : State (workerCount maxThreads))
    (action : Action (workerCount maxThreads)) : Option (State (workerCount maxThreads)) :=
  match action, s.phase with
  | .construct, .constructing =>
    (construct maxThreads).map fun pool => { s with phase := .starting 0, testThreadPool := some pool }
  | .constructThrows created, .constructing =>
    -- The vector of threads is destroyed with the joinable ones it has.
    if maxThreads.any fun limit => created = 0 ∨ (created : Int) < limit then
      some { s with phase := if created = 0 then .returned 1 else .terminated }
    else none
  | .submit, .starting index =>
    if index < tests then
      { s with activeTestsCount := s.activeTestsCount + 1 }.call (.starting (index + 1))
        (Pool.submit index)
    else none
  | .submitThrows numbered, .starting index =>
    -- The pool is the first to go when the exception leaves the block.
    if index < tests then
      { s with activeTestsCount := s.activeTestsCount + 1 }.call (.destroying true) fun pool =>
        (pool.submitThrows numbered).bind Pool.destroy
    else none
  | .started, .starting index => if index = tests then some { s with phase := .heartbeat } else none
  | .heartbeat, .heartbeat => if s.activeTestsCount = 0 then none else some s
  | .stop, .heartbeat => some { s with phase := .stopped, stop := true }
  | .wait, .stopped => s.call .waiting Pool.wait
  | .waited, .waiting =>
    if s.testThreadPool.any Pool.waited then some { s with phase := .clearing } else none
  | .clear, .clearing => s.call (.destroying false) Pool.destroy
  | .destroyed, .destroying unwinding =>
    if s.testThreadPool.any Pool.destroyed then
      some { s with phase := .returned (if unwinding then 1 else 0), testThreadPool := none }
    else none
  | .pool action, _ =>
    (s.testThreadPool.bind (Pool.step action)).map fun pool => { s with
      testThreadPool := some pool
      activeTestsCount := s.activeTestsCount - if action.endsTask then 1 else 0 }
  | _, _ => none

/-- `main` from the construction of its pool on, with the number of selected tests. -/
def mainMachine (maxThreads : Option Int) (tests : Nat) :
    transition.Machine (State (workerCount maxThreads)) (Action (workerCount maxThreads)) where
  init s := s = {}
  step := State.step maxThreads tests

end spdlogger.main
