import Spdlogger.Diagnostics.Data
import Spdlogger.Library.Machine

namespace spdlogger.diagnostics

/-- `iterate order` begins the loop over the map, which meets the keys in an
unspecified order. -/
inductive Action where
  | stop
  | collectorStep
  | iterate (order : List String)
  | reporterStep

/-- The rate the collector forms from its iteration. -/
def rate (i : Int) : Float := Float.ofInt i / Float.ofInt (i + 1)

/-- The value of the metric `label`. -/
def label (stress : Bool) : String := if stress then "stress" else "normal"

/-- What the loop over the map appends for one of its pairs. -/
def formatEntry (key : String) (value : MetricValue) : String :=
  key ++ "=" ++ formatMetric value ++ " "

/-- `std::scoped_lock` takes both mutexes or waits. -/
def State.scopedLock (s : State) (thread : Thread) : Option State :=
  if s.metricsMutex = none ∧ s.logBufferMutex = none then
    some { s with metricsMutex := some thread, logBufferMutex := some thread }
  else none

/-- The end of the block of a `scoped_lock`. -/
def State.scopedUnlock (s : State) : State := { s with metricsMutex := none, logBufferMutex := none }

/-- A step of the collector: it counts, writes the three metrics under both locks and appends
them to the line, in the order in which its loop over the map meets them. -/
def State.collectorStep (stress : Bool) (s : State) : Option State :=
  match s.collector with
  | .testing => some { s with collector := if s.stop then .exited else .fetching }
  | .fetching => some { s with
      iteration := Int.bmod (s.iteration + 1) (2 ^ 64)
      collector := .locking s.iteration }
  | .locking i =>
    (s.scopedLock .collector).map fun s => { s with collector := .writingIteration i }
  | .writingIteration i => some { s with
      metrics := s.metrics.insert "iteration" (.int64 i)
      collector := .writingRate i }
  | .writingRate i => some { s with
      metrics := s.metrics.insert "rate" (.double (rate i))
      collector := .writingLabel i }
  | .writingLabel _ => some { s with
      metrics := s.metrics.insert "label" (.string (label stress))
      collector := .iterating }
  | .appending order index =>
    match order[index]? with
    | some key =>
      (s.metrics.lookup key).map fun value => { s with
        logBuffer := s.logBuffer ++ formatEntry key value
        collector := .appending order (index + 1) }
    | none => some { s with logBuffer := s.logBuffer ++ "\n", collector := .sleeping }
  | .sleeping => some { s.scopedUnlock with collector := .testing }
  | .iterating | .exited => none

/-- A step of the reporter: it takes the text out of the buffer under both locks, and logs it
outside of them unless it is empty. -/
def State.reporterStep (s : State) : Option State :=
  match s.reporter with
  | .testing => some { s with reporter := if s.stop then .exited else .locking }
  | .locking => (s.scopedLock .reporter).map fun s => { s with reporter := .swapping }
  | .swapping => some { s with
      logBuffer := ""
      reporter := .counting s.logBuffer
      drained := s.drained ++ [s.logBuffer] }
  | .counting drainedBuffer => some { s.scopedUnlock with
      reporter := .logging drainedBuffer s.metrics.keys.length }
  | .logging drainedBuffer metricCount =>
    let reports :=
      if drainedBuffer = "" then s.reports else s.reports ++ [(metricCount, drainedBuffer)]
    some { s with reporter := .sleeping, reports }
  | .sleeping => some { s with reporter := .testing }
  | .exited => none

/-- One step of the threads, or the `stop` of the caller. `iterate` fixes the order of the map
for a loop over it. -/
def State.step (stress : Bool) (s : State) : Action → Option State
  | .stop => some { s with stop := true }
  | .collectorStep => s.collectorStep stress
  | .iterate order =>
    if s.collector = .iterating ∧ order.Perm s.metrics.keys then
      some { s with collector := .appending order 0 }
    else none
  | .reporterStep => s.reporterStep

/-- `DiagnosticsTest::run` from the start of its two threads on. -/
def diagnosticsMachine (stress : Bool) : transition.Machine State Action where
  init s := s = {}
  step := State.step stress

end spdlogger.diagnostics
