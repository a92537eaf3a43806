import Spdlogger.ConcurrentMetrics.Event

namespace spdlogger.concurrent_metrics

/-- An event carries the counts of a collection of events and, as long as the
processed count has not wrapped, their latencies at their weight. Every event
weighs itself. -/
structure Event.Weighs (event : Event) (events : Multiset Event) : Prop where
  processed : event.processedCount.toNat = processedTotal events % 2 ^ 32
  failed : event.failedCount.toNat = failedTotal events % 2 ^ 32
  latency : processedTotal events < 2 ^ 32 →
    event.averageLatencyUs * event.processedCount.toNat = latencyTotal events

/-- An event that has accumulated a collection from the default event also has
the default average when nothing of weight was merged. -/
structure Event.Summarizes (event : Event) (events : Multiset Event) : Prop extends
    event.Weighs events where
  idle : processedTotal events = 0 → event.averageLatencyUs = 0

/-- An event weighs what it is. -/
theorem Event.weighs_self (event : Event) : event.Weighs {event} where
  processed := by
    rw [processedTotal_singleton, Nat.mod_eq_of_lt event.processedCount.toNat_lt]
  failed := by
    rw [failedTotal_singleton, Nat.mod_eq_of_lt event.failedCount.toNat_lt]
  latency _ := (latencyTotal_singleton event).symm

/-- The empty event summarizes nothing. -/
theorem Event.summarizes_default : ({} : Event).Summarizes 0 where
  processed := rfl
  failed := rfl
  latency _ := by simp
  idle _ := rfl

/-- Merging adds up what the two events weigh. -/
theorem Event.Weighs.envelopeWith {self event : Event} {mine incoming : Multiset Event}
    (hself : self.Weighs mine) (hevent : event.Weighs incoming) :
    (self.envelopeWith event).Weighs (mine + incoming) := by
  refine ⟨?_, ?_, ?_⟩
  · have h := UInt32.toNat_add self.processedCount event.processedCount
    simp only [Event.envelopeWith, processedTotal_add, h, hself.processed, hevent.processed]
    omega
  · have h := UInt32.toNat_add self.failedCount event.failedCount
    simp only [Event.envelopeWith, failedTotal_add, h, hself.failed, hevent.failed]
    omega
  · intro hroom
    rw [processedTotal_add] at hroom
    have hcombined : (self.processedCount + event.processedCount).toNat =
        self.processedCount.toNat + event.processedCount.toNat := by
      have hmine := hself.processed
      have hincoming := hevent.processed
      rw [UInt32.toNat_add]
      omega
    rw [latencyTotal_add, ← hself.latency (by omega), ← hevent.latency (by omega)]
    simp only [Event.envelopeWith]
    split
    · rename_i hpositive
      have hne : ((self.processedCount + event.processedCount).toNat : ℚ) ≠ 0 := by
        rw [gt_iff_lt, UInt32.lt_iff_toNat_lt] at hpositive
        exact_mod_cast hpositive.ne'
      rw [div_mul_cancel₀ _ hne]
    · rename_i hzero
      have hsum : (self.processedCount + event.processedCount).toNat = 0 := by
        rw [gt_iff_lt, UInt32.lt_iff_toNat_lt] at hzero
        simpa using hzero
      have hself0 : self.processedCount.toNat = 0 := by omega
      have hevent0 : event.processedCount.toNat = 0 := by omega
      simp [hsum, hself0, hevent0]

/-- Merging in an event adds to what is summarized. -/
theorem Event.Summarizes.envelopeWith {self event : Event} {mine incoming : Multiset Event}
    (hself : self.Summarizes mine) (hevent : event.Weighs incoming) :
    (self.envelopeWith event).Summarizes (mine + incoming) := by
  refine ⟨hself.toWeighs.envelopeWith hevent, ?_⟩
  intro hzero
  rw [processedTotal_add] at hzero
  have hself0 : self.processedCount.toNat = 0 := by
    rw [hself.processed, show processedTotal mine = 0 by omega, Nat.zero_mod]
  have hevent0 : event.processedCount.toNat = 0 := by
    rw [hevent.processed, show processedTotal incoming = 0 by omega, Nat.zero_mod]
  have hguard : ¬ self.processedCount + event.processedCount > 0 := by
    rw [gt_iff_lt, UInt32.lt_iff_toNat_lt, UInt32.toNat_add, hself0, hevent0]
    decide
  simp only [Event.envelopeWith, if_neg hguard]
  exact hself.idle (by omega)

/-- Below the wrap, the average of a summary is the weighted mean. Both are
zero when nothing of weight was merged. -/
theorem Event.Summarizes.average_eq {event : Event} {events : Multiset Event}
    (h : event.Summarizes events) (hroom : processedTotal events < 2 ^ 32) :
    event.averageLatencyUs = meanLatency events := by
  have hcount : event.processedCount.toNat = processedTotal events := by
    rw [h.processed, Nat.mod_eq_of_lt hroom]
  unfold meanLatency
  by_cases hzero : processedTotal events = 0
  · rw [h.idle hzero, hzero]
    simp
  · have hne : (processedTotal events : ℚ) ≠ 0 := by exact_mod_cast hzero
    rw [eq_div_iff hne, ← hcount, h.latency hroom]

/-- Merging in one event after the other adds all of them. -/
theorem Event.Summarizes.foldl {event : Event} {events : Multiset Event}
    (h : event.Summarizes events) (batch : List Event) :
    (batch.foldl Event.envelopeWith event).Summarizes (events + batch) := by
  induction batch generalizing event events with
  | nil => simpa using h
  | cons incoming rest ih =>
    have hnext := ih (h.envelopeWith incoming.weighs_self)
    rwa [add_assoc, Multiset.singleton_add, Multiset.cons_coe] at hnext

/-- `consolidate` summarizes its batch, starting from the default event. -/
theorem Event.summarizes_consolidate {batch : List Event} {consolidatedEvent : Event}
    (hconsolidate : Event.consolidate batch = some consolidatedEvent) :
    consolidatedEvent.Summarizes batch := by
  unfold Event.consolidate at hconsolidate
  split at hconsolidate
  · cases hconsolidate
  · cases hconsolidate
    simpa using Event.summarizes_default.foldl batch

/-- Only an empty batch consolidates to nothing. -/
theorem Event.consolidate_eq_none {batch : List Event} :
    Event.consolidate batch = none ↔ batch = [] := by
  simp [Event.consolidate]

/-- What a sequence of flushes leaves in the shared data: nothing when every
batch was empty, and otherwise a summary of all their events. -/
def SharedHolds (sharedData : Option Event) (events : Multiset Event) : Prop :=
  match sharedData with
  | none => events = 0
  | some shared => events ≠ 0 ∧ shared.Summarizes events

/-- A flush adds its batch to the shared data. -/
theorem SharedHolds.flushBatch {sharedData : Option Event} {events : Multiset Event}
    (h : SharedHolds sharedData events) (batch : List Event) :
    SharedHolds (flushBatch sharedData batch) (events + batch) := by
  unfold concurrent_metrics.flushBatch
  cases hconsolidate : Event.consolidate batch with
  | none =>
    rw [Event.consolidate_eq_none.mp hconsolidate]
    simpa using h
  | some consolidatedEvent =>
    have hbatch := Event.summarizes_consolidate hconsolidate
    have hne : (batch : Multiset Event) ≠ 0 := by
      intro hempty
      rw [Event.consolidate_eq_none.mpr (by simpa using hempty)] at hconsolidate
      cases hconsolidate
    cases sharedData with
    | none =>
      simp only [SharedHolds] at h
      subst h
      simpa only [mergeShared, SharedHolds, zero_add] using And.intro hne hbatch
    | some shared =>
      refine ⟨?_, h.2.envelopeWith hbatch.toWeighs⟩
      intro hempty
      exact h.1 (Multiset.le_zero.mp (hempty ▸ Multiset.le_add_right events batch))

/-- Folding the flushes of any batches sums up exactly their events. -/
theorem sharedHolds_sharedAfter (batches : List (List Event)) :
    SharedHolds (sharedAfter batches) (batches.flatten : Multiset Event) := by
  induction batches using List.reverseRecOn with
  | nil => rfl
  | append_singleton batches batch ih =>
    have hnext := ih.flushBatch batch
    simpa [sharedAfter, ← Multiset.coe_add] using hnext

end spdlogger.concurrent_metrics
