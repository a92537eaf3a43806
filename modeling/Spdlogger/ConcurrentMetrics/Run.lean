import Mathlib.Data.Fintype.Basic
import Mathlib.Logic.Function.Basic
import Spdlogger.Library.Machine
import Spdlogger.ConcurrentMetrics.Event

namespace spdlogger.concurrent_metrics

/-- Where a worker thread stands. `merging` lies between the two halves of
`flushLambda`: the batch is consolidated and cleared, the lock not yet taken.
In `caught` an exception has left the thread's `try` block. -/
inductive WorkerPhase where
  | notCreated
  | testingStop
  | testingInternalStop
  | creating
  | flushing (last : Bool)
  | merging (last : Bool) (consolidatedEvent : Event)
  | caught
  | exited
  deriving DecidableEq

/-- A worker with its local batch. `created` and `inFlight` are history: every
event the worker created, and the batch behind a consolidated event that waits
for the lock. -/
structure Worker where
  phase : WorkerPhase := .notCreated
  unreportedEvents : List Event := []
  inFlight : List Event := []
  created : List Event := []

/-- Where the reporter stands: `snapshotting` is about to take the lock, and
`reporting` has left it with its copy. -/
inductive ReporterPhase where
  | notCreated
  | testingStop
  | testingInternalStop
  | snapshotting (last : Bool)
  | reporting (last : Bool) (sharedDataCopy : Option Event)
  | caught
  | exited
  deriving DecidableEq

/-- Where the thread inside `run` stands. `joining k` waits for the `k`-th
worker, and for the reporter once the workers are through. -/
inductive MainPhase where
  | creatingWorker (workerId : Nat)
  | workerCreationFailed
  | creatingReporter
  | reporterCreationFailed
  | joining (index : Nat)
  | checking
  | returned
  | threw
  deriving DecidableEq, Repr

/-- `run` from the point where `internalStop_` and `sharedData_` are reset.
`flushed` lists the merged batches in the order of the lock, `snapshots` and
`reports` what the reporter copied and logged. -/
structure State (workersCount : Nat) where
  stop : Bool := false
  internalStop : Bool := false
  sharedData : Option Event := none
  workers : Fin workersCount → Worker := fun _ => {}
  reporter : ReporterPhase := .notCreated
  main : MainPhase := .creatingWorker 0
  flushed : List (Fin workersCount × List Event) := []
  snapshots : List (Option Event) := []
  reports : List (Option Event) := []

/-- `succeeds` says whether the thread creation that a step of `run` makes succeeds. -/
inductive Action (workersCount : Nat) where
  | setStop
  | mainStep (succeeds : Bool)
  | createRandom (workerId : Fin workersCount) (event : Event)
  | workerStep (workerId : Fin workersCount)
  | workerThrows (workerId : Fin workersCount)
  | reporterStep
  | reporterThrows

/-- Where `flushLambda` returns to. -/
def WorkerPhase.afterFlush (last : Bool) : WorkerPhase := if last then .exited else .testingStop

/-- Where `reportLambda` returns to. -/
def ReporterPhase.afterReport (last : Bool) : ReporterPhase := if last then .exited else .testingStop

/-- The phases inside the `try` block of a worker. -/
def WorkerPhase.running : WorkerPhase → Bool
  | .notCreated | .caught | .exited => false
  | _ => true

/-- The reporter is inside its `try` block. -/
def ReporterPhase.running : ReporterPhase → Bool
  | .notCreated | .caught | .exited => false
  | _ => true

/-- A thread that was never created is not joinable, and `wait` skips it. -/
def WorkerPhase.joined (phase : WorkerPhase) : Bool := phase = .exited || phase = .notCreated

/-- The reporter can be joined, or has never been created. -/
def ReporterPhase.joined (phase : ReporterPhase) : Bool := phase = .exited || phase = .notCreated

variable {workersCount : Nat}

/-- The state with one worker changed. -/
def State.setWorker (s : State workersCount) (workerId : Fin workersCount) (worker : Worker) :
    State workersCount :=
  { s with workers := Function.update s.workers workerId worker }

/-- A step of `run` itself. `succeeds` is the outcome of a thread creation. A
failed worker ends the creation of workers; the reporter is still created. -/
def State.mainStep (s : State workersCount) (succeeds : Bool) : Option (State workersCount) :=
  match s.main with
  | .creatingWorker workerId =>
    if h : workerId < workersCount then
      if succeeds then
        some { s.setWorker ⟨workerId, h⟩ { s.workers ⟨workerId, h⟩ with phase := .testingStop } with
          main := .creatingWorker (workerId + 1) }
      else some { s with main := .workerCreationFailed }
    else some { s with main := .creatingReporter }
  | .workerCreationFailed => some { s with internalStop := true, main := .creatingReporter }
  | .creatingReporter =>
    if succeeds then some { s with reporter := .testingStop, main := .joining 0 }
    else some { s with main := .reporterCreationFailed }
  | .reporterCreationFailed => some { s with internalStop := true, main := .joining 0 }
  | .joining index =>
    if h : index < workersCount then
      if (s.workers ⟨index, h⟩).phase.joined then some { s with main := .joining (index + 1) } else none
    else if s.reporter.joined then some { s with main := .checking }
    else none
  | .checking => some { s with main := if s.internalStop then .threw else .returned }
  | .returned | .threw => none

/-- A step of a worker, the creation of an event apart. Consolidating and
clearing the batch needs no lock; merging does. -/
def State.workerStep (s : State workersCount) (workerId : Fin workersCount) :
    Option (State workersCount) :=
  let worker := s.workers workerId
  match worker.phase with
  | .testingStop =>
    let next : WorkerPhase := if s.stop then .flushing true else .testingInternalStop
    some (s.setWorker workerId { worker with phase := next })
  | .testingInternalStop =>
    let next : WorkerPhase := if s.internalStop then .flushing true else .creating
    some (s.setWorker workerId { worker with phase := next })
  | .flushing last =>
    match Event.consolidate worker.unreportedEvents with
    | none => some (s.setWorker workerId { worker with phase := .afterFlush last })
    | some consolidatedEvent =>
      some (s.setWorker workerId { worker with
        phase := .merging last consolidatedEvent
        unreportedEvents := []
        inFlight := worker.unreportedEvents })
  | .merging last consolidatedEvent =>
    some { s.setWorker workerId { worker with phase := .afterFlush last, inFlight := [] } with
      sharedData := mergeShared s.sharedData consolidatedEvent
      flushed := s.flushed ++ [(workerId, worker.inFlight)] }
  | .caught =>
    some { s.setWorker workerId { worker with phase := .exited } with internalStop := true }
  | .notCreated | .creating | .exited => none

/-- The body of the worker's loop up to its flush. -/
def State.createRandom (eventBatchSize : Nat) (s : State workersCount) (workerId : Fin workersCount)
    (event : Event) : Option (State workersCount) :=
  let worker := s.workers workerId
  if worker.phase = .creating then
    let unreportedEvents := worker.unreportedEvents ++ [event]
    let next : WorkerPhase :=
      if unreportedEvents.length ≥ eventBatchSize then .flushing false else .testingStop
    some (s.setWorker workerId { worker with
      phase := next
      unreportedEvents
      created := worker.created ++ [event] })
  else none

/-- A step of the reporter. The copy is taken under the lock and logged after it. -/
def State.reporterStep (s : State workersCount) : Option (State workersCount) :=
  match s.reporter with
  | .testingStop =>
    some { s with reporter := if s.stop then .snapshotting true else .testingInternalStop }
  | .testingInternalStop =>
    some { s with reporter := .snapshotting s.internalStop }
  | .snapshotting last =>
    some { s with
      reporter := .reporting last s.sharedData
      snapshots := s.snapshots ++ [s.sharedData] }
  | .reporting last sharedDataCopy =>
    some { s with reporter := .afterReport last, reports := s.reports ++ [sharedDataCopy] }
  | .caught => some { s with reporter := .exited, internalStop := true }
  | .notCreated | .exited => none

/-- One step of `run`, of a worker or of the reporter, or the `stop` of the caller. An exception
leads a thread to its handler. -/
def State.step (eventBatchSize : Nat) (s : State workersCount) :
    Action workersCount → Option (State workersCount)
  | .setStop => some { s with stop := true }
  | .mainStep succeeds => s.mainStep succeeds
  | .createRandom workerId event => s.createRandom eventBatchSize workerId event
  | .workerStep workerId => s.workerStep workerId
  | .workerThrows workerId =>
    if (s.workers workerId).phase.running then
      some (s.setWorker workerId { s.workers workerId with phase := .caught })
    else none
  | .reporterStep => s.reporterStep
  | .reporterThrows => if s.reporter.running then some { s with reporter := .caught } else none

/-- One call of `ConcurrentMetricsTest::run`, with stop at either value. -/
def metricsMachine (workersCount eventBatchSize : Nat) :
    transition.Machine (State workersCount) (Action workersCount) where
  init s := ∃ stop, s = { stop }
  step := State.step eventBatchSize

theorem init_default (workersCount eventBatchSize : Nat) :
    (metricsMachine workersCount eventBatchSize).init {} := ⟨false, rfl⟩

/-- A step in which no worker and no reporter throws. -/
def Action.ThrowsNothing : Action workersCount → Prop
  | .workerThrows _ | .reporterThrows => False
  | _ => True

end spdlogger.concurrent_metrics
