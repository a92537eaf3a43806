import Mathlib.Algebra.BigOperators.Ring.Finset
import Mathlib.Algebra.BigOperators.Ring.Multiset
import Mathlib.Algebra.Order.BigOperators.Group.Multiset
import Mathlib.Data.Rat.Cast.Order
import Mathlib.Tactic.FieldSimp
import Mathlib.Tactic.Ring
import Mathlib.Tactic.Linarith

namespace spdlogger.concurrent_metrics

/-- `concurrent_metrics::Event`, with its `double` taken as an exact rational. -/
structure Event where
  processedCount : UInt32 := 0
  failedCount : UInt32 := 0
  averageLatencyUs : ℚ := 0
  lastErrorMessage : Vector UInt8 128 := Vector.replicate 128 0
  deriving DecidableEq

/-- `Event::envelopeWith`. The combined count is the wrapping 32-bit sum, the
numerator is not; a combined count of zero leaves the average alone. -/
def Event.envelopeWith (self event : Event) : Event :=
  let previousProcessedCount := self.processedCount
  let incomingProcessedCount := event.processedCount
  let combinedProcessedCount := previousProcessedCount + incomingProcessedCount
  { averageLatencyUs :=
      if combinedProcessedCount > 0 then
        (self.averageLatencyUs * previousProcessedCount.toNat +
          event.averageLatencyUs * incomingProcessedCount.toNat) / combinedProcessedCount.toNat
      else self.averageLatencyUs
    processedCount := self.processedCount + event.processedCount
    failedCount := self.failedCount + event.failedCount
    lastErrorMessage :=
      if event.lastErrorMessage[0] ≠ 0 then event.lastErrorMessage else self.lastErrorMessage }

/-- `Event::consolidate`. -/
def Event.consolidate (events : List Event) : Option Event :=
  if events.isEmpty then none else some (events.foldl Event.envelopeWith {})

/-- The critical section of `flushLambda`: the first consolidated event is
stored, every later one is merged into what is there. -/
def mergeShared (sharedData : Option Event) (consolidatedEvent : Event) : Option Event :=
  match sharedData with
  | none => some consolidatedEvent
  | some shared => some (shared.envelopeWith consolidatedEvent)

/-- `flushLambda` on one batch: nothing to merge when the batch is empty. -/
def flushBatch (sharedData : Option Event) (unreportedEvents : List Event) : Option Event :=
  match Event.consolidate unreportedEvents with
  | none => sharedData
  | some consolidatedEvent => mergeShared sharedData consolidatedEvent

/-- `sharedData_` after a sequence of flushes, in the order of the lock. -/
def sharedAfter (batches : List (List Event)) : Option Event := batches.foldl flushBatch none

/-- The true, unbounded sum of the processed counts. -/
def processedTotal (events : Multiset Event) : Nat :=
  (events.map fun event => event.processedCount.toNat).sum

/-- The true, unbounded sum of the failed counts. -/
def failedTotal (events : Multiset Event) : Nat :=
  (events.map fun event => event.failedCount.toNat).sum

/-- The count-weighted sum of the latencies. -/
def latencyTotal (events : Multiset Event) : ℚ :=
  (events.map fun event => event.averageLatencyUs * (event.processedCount.toNat : ℚ)).sum

/-- The count-weighted mean of the latencies. -/
def meanLatency (events : Multiset Event) : ℚ := latencyTotal events / processedTotal events

@[simp] theorem processedTotal_zero : processedTotal 0 = 0 := rfl
@[simp] theorem failedTotal_zero : failedTotal 0 = 0 := rfl
@[simp] theorem latencyTotal_zero : latencyTotal 0 = 0 := rfl

/-- The processed counts of two lots add up. -/
@[simp] theorem processedTotal_add (first second : Multiset Event) :
    processedTotal (first + second) = processedTotal first + processedTotal second := by
  simp [processedTotal]

/-- The failed counts of two lots add up. -/
@[simp] theorem failedTotal_add (first second : Multiset Event) :
    failedTotal (first + second) = failedTotal first + failedTotal second := by
  simp [failedTotal]

/-- The latencies of two lots add up. -/
@[simp] theorem latencyTotal_add (first second : Multiset Event) :
    latencyTotal (first + second) = latencyTotal first + latencyTotal second := by
  simp [latencyTotal]

@[simp] theorem processedTotal_singleton (event : Event) :
    processedTotal {event} = event.processedCount.toNat := by
  simp [processedTotal]

@[simp] theorem failedTotal_singleton (event : Event) :
    failedTotal {event} = event.failedCount.toNat := by
  simp [failedTotal]

/-- The latency of an event is weighted with its count. -/
@[simp] theorem latencyTotal_singleton (event : Event) :
    latencyTotal {event} = event.averageLatencyUs * event.processedCount.toNat := by
  simp [latencyTotal]

/-- The weighted mean lies between any bounds on the latencies that carry weight. -/
theorem meanLatency_between (events : Multiset Event) (hpositive : 0 < processedTotal events)
    {lo hi : ℚ} (hbounds : ∀ event ∈ events, 0 < event.processedCount →
      lo ≤ event.averageLatencyUs ∧ event.averageLatencyUs ≤ hi) :
    lo ≤ meanLatency events ∧ meanLatency events ≤ hi := by
  have hcast : (processedTotal events : ℚ) =
      (events.map fun event => (event.processedCount.toNat : ℚ)).sum := by
    unfold processedTotal
    rw [Nat.cast_multiset_sum, Multiset.map_map]
    rfl
  have hweight : (0 : ℚ) < processedTotal events := by exact_mod_cast hpositive
  have hterm (event : Event) (hevent : event ∈ events) :
      lo * event.processedCount.toNat ≤ event.averageLatencyUs * event.processedCount.toNat ∧
        event.averageLatencyUs * event.processedCount.toNat ≤ hi * event.processedCount.toNat := by
    have hnonneg : (0 : ℚ) ≤ event.processedCount.toNat := Nat.cast_nonneg _
    by_cases hzero : event.processedCount.toNat = 0
    · simp [hzero]
    · have hpos : 0 < event.processedCount := by
        rw [UInt32.lt_iff_toNat_lt]
        simpa [Nat.pos_iff_ne_zero] using hzero
      obtain ⟨hlo, hhi⟩ := hbounds event hevent hpos
      exact ⟨mul_le_mul_of_nonneg_right hlo hnonneg, mul_le_mul_of_nonneg_right hhi hnonneg⟩
  unfold meanLatency
  constructor
  · rw [le_div_iff₀ hweight, hcast, ← Multiset.sum_map_mul_left]
    exact Multiset.sum_map_le_sum_map _ _ fun event hevent => (hterm event hevent).1
  · rw [div_le_iff₀ hweight, hcast, ← Multiset.sum_map_mul_left]
    exact Multiset.sum_map_le_sum_map _ _ fun event hevent => (hterm event hevent).2

end spdlogger.concurrent_metrics
