import Spdlogger.Main.Count
import Spdlogger.TestContext.Parse

namespace spdlogger.main

open spdlogger.test_context (TestContext Level)

/-- The names in the registry. -/
def k_registry : List String :=
  ["string_uaf", "timebase", "level", "diagnostics", "sink_callback", "level5",
    "concurrent_metrics_test", "producer_consumer_queue", "ride_state_manager"]

/-- What a logger does when the queue is full. -/
inductive OverflowPolicy where
  | block
  | overrun_oldest
  deriving DecidableEq, Repr

/-- What `makeLogger` is given, with the size of the queue of the logger's own pool. -/
structure Logger where
  filename : String
  loggerName : String
  logLevel : Level
  overflowPolicy : OverflowPolicy
  queueSize : Int
  deriving DecidableEq, Repr

/-- The logger for a file, with what the settings say of all loggers. -/
def makeLogger (ctx : TestContext) (filename loggerName : String) : Logger where
  filename
  loggerName
  logLevel := ctx.logLevel
  overflowPolicy := if ctx.stress then .overrun_oldest else .block
  queueSize := ctx.queueSize

/-- The shared logger. -/
def mainLogger (ctx : TestContext) : Logger :=
  makeLogger ctx (ctx.filename.getD "output.log") "main"

/-- What happens to a test. It is `refused` by a `start` without a logger, and has `ended`
when `start` is over, with an exception that its task catches or without. -/
inductive TestEvent where
  | configured (logger : Logger)
  | refused
  | started
  | ended (threw : Bool)
  | destroyed
  deriving DecidableEq, Repr

/-- A test object, with what has happened to it. -/
structure TestBase where
  name : String
  logger_ : Option Logger := none
  history : List TestEvent := []
  deriving DecidableEq, Repr

/-- The logger a test gets: the one of `main`, or one that writes to a file of its own. -/
def TestBase.config (ctx : TestContext) (self : TestBase) : Logger :=
  match ctx.filename with
  | some _ => mainLogger ctx
  | none => makeLogger ctx (self.name ++ ".log") self.name

/-- `configure`, with the shared logger or with the settings. -/
def TestBase.configure (ctx : TestContext) (self : TestBase) : TestBase :=
  { self with
    logger_ := some (self.config ctx)
    history := self.history ++ [.configured (self.config ctx)] }

/-- `start` as far as the call of `run`. -/
def TestBase.start (self : TestBase) : TestBase :=
  match self.logger_ with
  | none => { self with history := self.history ++ [.refused] }
  | some _ => { self with history := self.history ++ [.started] }

/-- The end of `start`. -/
def TestBase.finish (self : TestBase) (threw : Bool) : TestBase :=
  { self with history := self.history ++ [.ended threw] }

/-- The destructor. -/
def TestBase.destroy (self : TestBase) : TestBase :=
  { self with history := self.history ++ [.destroyed] }

/-- Where `main` stands before it constructs its pool. -/
inductive Startup where
  | logging
  | creating (index : Nat)
  | configuring (index : Nat)
  | running
  | failed
  deriving DecidableEq, Repr

/-- `main` with its vector of tests, which keeps those that are destroyed. -/
structure Program (workers : Nat) where
  startup : Startup := .logging
  skipped : List String := []
  tests : List TestBase := []
  state : State workers := {}

/-- `throws` is an exception out of what the startup does next. `threw` says whether the
test that ends with a step does so with an exception. -/
inductive ProgramAction (workers : Nat) where
  | makeLogger
  | create
  | configure
  | throws
  | run (action : Action workers) (threw : Bool)

variable {workers : Nat}

/-- The steps that destroy the tests: `tests.clear()`, and the way out with an exception. -/
def State.destroysTests (s : State workers) : Action workers → Bool
  | .clear => true
  | .constructThrows created => created = 0
  | .destroyed => s.phase = .destroying true
  | _ => false

/-- What a step does to the test with that index. -/
def State.track (s : State workers) (action : Action workers) (threw : Bool) (index : Nat)
    (test : TestBase) : TestBase :=
  match action with
  | .pool action =>
    if index ∈ s.testThreadPool.elim 0 fun pool => pool.begun action then test.start
    else if index ∈ s.testThreadPool.elim 0 fun pool => pool.ended action then test.finish threw
    else test
  | action => if s.destroysTests action then test.destroy else test

/-- An exception leaves the block with the vector of tests. -/
def Program.fail (self : Program workers) : Program workers :=
  { self with startup := .failed, tests := self.tests.map TestBase.destroy }

/-- One step of `main`: of its startup in the order of the source, whose steps may throw, or of
the pool phase with what it does to the tests. -/
def Program.step (ctx : TestContext) (self : Program (workerCount ctx.maxThreads))
    (action : ProgramAction (workerCount ctx.maxThreads)) :
    Option (Program (workerCount ctx.maxThreads)) :=
  match action, self.startup with
  | .makeLogger, .logging => some { self with startup := .creating 0 }
  | .create, .creating index =>
    match k_registry[index]? with
    | some testName =>
      if ctx.shouldRun testName then
        some { self with
          startup := .creating (index + 1)
          tests := self.tests ++ [{ name := testName }] }
      else
        some { self with
          startup := .creating (index + 1)
          skipped := self.skipped ++ [testName] }
    | none => some { self with startup := .configuring 0 }
  | .configure, .configuring index =>
    match self.tests[index]? with
    | some test =>
      some { self with
        startup := .configuring (index + 1)
        tests := self.tests.set index (test.configure ctx) }
    | none => some { self with startup := .running }
  | .throws, .logging => some { self with startup := .failed }
  | .throws, .creating index =>
    if index < k_registry.length then some self.fail else none
  | .throws, .configuring index => if index < self.tests.length then some self.fail else none
  | .run action threw, .running =>
    (self.state.step ctx.maxThreads self.tests.length action).map fun state =>
      { self with state, tests := self.tests.mapIdx (self.state.track action threw) }
  | _, _ => none

/-- `main`, from its start on. -/
def programMachine (ctx : TestContext) :
    transition.Machine (Program (workerCount ctx.maxThreads))
      (ProgramAction (workerCount ctx.maxThreads)) where
  init self := self = {}
  step := Program.step ctx

/-- What `main` returns, once it does. -/
def Program.exitCode (self : Program workers) : Option Nat :=
  match self.startup, self.state.phase with
  | .failed, _ => some 1
  | .running, .returned code => some code
  | _, _ => none

end spdlogger.main
