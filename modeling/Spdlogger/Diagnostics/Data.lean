import Mathlib.Algebra.Group.Nat.Defs
import Mathlib.Data.List.AList

namespace spdlogger.diagnostics

/-- Counters, rates and labels. -/
inductive MetricValue where
  | int64 (value : Int)
  | double (value : Float)
  | string (value : String)

/-- The text of a metric, as `std::visit` picks it. -/
def formatMetric : MetricValue → String
  | .int64 value => toString value
  | .double value => value.toString
  | .string value => value

/-- `std::unordered_map`, whose keys are distinct. -/
abbrev Metrics := AList fun _ : String => MetricValue

/-- The two threads that `run` starts. -/
inductive Thread where
  | collector
  | reporter
  deriving DecidableEq, Repr

/-- Where the collector stands. From `writingIteration` to `sleeping` it has both
locks; `appending order index` is the loop over the map, in the order in which it
meets the keys. -/
inductive CollectorPhase where
  | testing
  | fetching
  | locking (i : Int)
  | writingIteration (i : Int)
  | writingRate (i : Int)
  | writingLabel (i : Int)
  | iterating
  | appending (order : List String) (index : Nat)
  | sleeping
  | exited
  deriving DecidableEq, Repr

/-- Where the reporter stands. It has both locks while `swapping` and `counting`. -/
inductive ReporterPhase where
  | testing
  | locking
  | swapping
  | counting (drainedBuffer : String)
  | logging (drainedBuffer : String) (metricCount : Int)
  | sleeping
  | exited
  deriving DecidableEq, Repr

/-- The collector is inside its `scoped_lock`. -/
def CollectorPhase.holds : CollectorPhase → Bool
  | .testing | .fetching | .locking _ | .exited => false
  | _ => true

/-- The reporter is inside its `scoped_lock`. -/
def ReporterPhase.holds : ReporterPhase → Bool
  | .swapping | .counting _ => true
  | _ => false

/-- `iteration` is local to `run`. The last two fields are history: the texts
drained from the buffer, and the reports that were logged. -/
structure State where
  stop : Bool := false
  iteration : Int := 0
  metricsMutex : Option Thread := none
  logBufferMutex : Option Thread := none
  metrics : Metrics := ∅
  logBuffer : String := ""
  collector : CollectorPhase := .testing
  reporter : ReporterPhase := .testing
  drained : List String := []
  reports : List (Int × String) := []

end spdlogger.diagnostics
