import Spdlogger.ConcurrentMetrics.Merge

namespace spdlogger.concurrent_metrics

/-- The average of the merged data is the weighted mean of the merged events,
and so lies between the latencies that carry weight. -/
def AveragesTruly (batches : List (List Event)) : Prop :=
  ∀ shared, sharedAfter batches = some shared →
    0 < processedTotal (batches.flatten : Multiset Event) →
      shared.averageLatencyUs = meanLatency (batches.flatten : Multiset Event) ∧
        ∀ lo hi : ℚ, (∀ event ∈ batches.flatten, 0 < event.processedCount →
          lo ≤ event.averageLatencyUs ∧ event.averageLatencyUs ≤ hi) →
            lo ≤ shared.averageLatencyUs ∧ shared.averageLatencyUs ≤ hi

/-- The same batches up to the latencies and messages of their events. -/
def SameCounts (batches other : List (List Event)) : Prop :=
  other.map (List.map Event.processedCount) = batches.map (List.map Event.processedCount)

/-- The total is the sum of the counts. -/
theorem processedTotal_coe (events : List Event) :
    processedTotal (events : Multiset Event) =
      ((events.map Event.processedCount).map UInt32.toNat).sum := by
  simp [processedTotal, Function.comp_def]

/-- Batches with the same counts have the same total. -/
theorem SameCounts.processedTotal_eq {batches other : List (List Event)}
    (h : SameCounts batches other) :
    processedTotal (other.flatten : Multiset Event) =
      processedTotal (batches.flatten : Multiset Event) := by
  have hcounts : other.flatten.map Event.processedCount =
      batches.flatten.map Event.processedCount := by
    rw [List.map_flatten, List.map_flatten, h]
  rw [processedTotal_coe, processedTotal_coe, hcounts]

/-- One more batch is flushed into what the batches before it left. -/
theorem sharedAfter_append (batches : List (List Event)) (batch : List Event) :
    sharedAfter (batches ++ [batch]) = flushBatch (sharedAfter batches) batch := by
  simp [sharedAfter]

/-- Below the wrap the average is true, whatever the latencies. -/
theorem averagesTruly_of_lt {batches : List (List Event)}
    (hroom : processedTotal (batches.flatten : Multiset Event) < 2 ^ 32) :
    AveragesTruly batches := by
  intro shared hshared hpositive
  have hholds := sharedHolds_sharedAfter batches
  rw [hshared] at hholds
  have haverage := hholds.2.average_eq hroom
  refine ⟨haverage, fun lo hi hbounds => ?_⟩
  rw [haverage]
  exact meanLatency_between _ hpositive fun event hevent => hbounds event (by simpa using hevent)

/-- An event whose average is either zero or exactly `mass` spread over its own
count. -/
def Event.Spike (event : Event) (mass : ℚ) : Prop :=
  event.averageLatencyUs = 0 ∨
    event.averageLatencyUs * event.processedCount.toNat = mass ∧ event.processedCount.toNat ≠ 0

/-- The merged average is the weighted mean, unless the merged count is 0. -/
theorem Event.average_envelopeWith (self event : Event) :
    (self.envelopeWith event).averageLatencyUs =
      if (self.envelopeWith event).processedCount.toNat = 0 then self.averageLatencyUs
      else (self.averageLatencyUs * self.processedCount.toNat +
        event.averageLatencyUs * event.processedCount.toNat) /
          (self.envelopeWith event).processedCount.toNat := by
  have hguard : self.processedCount + event.processedCount > 0 ↔
      ¬ (self.processedCount + event.processedCount).toNat = 0 := by
    rw [gt_iff_lt, UInt32.lt_iff_toNat_lt]
    exact Nat.pos_iff_ne_zero
  simp only [Event.envelopeWith, hguard]
  split_ifs <;> rfl

/-- Merging a spike into an event without latency leaves a spike of the same mass. -/
theorem Event.Spike.merged_into {self event : Event} {mass : ℚ} (hself : self.averageLatencyUs = 0)
    (hevent : event.Spike mass) : (self.envelopeWith event).Spike mass := by
  have haverage := self.average_envelopeWith event
  by_cases hzero : (self.envelopeWith event).processedCount.toNat = 0
  · rw [if_pos hzero] at haverage
    exact .inl (haverage.trans hself)
  · rw [if_neg hzero, hself, zero_mul, zero_add] at haverage
    rcases hevent with hsilent | ⟨hmass, _⟩
    · exact .inl (by rw [haverage, hsilent, zero_mul, zero_div])
    · have hne : ((self.envelopeWith event).processedCount.toNat : ℚ) ≠ 0 := by
        exact_mod_cast hzero
      exact .inr ⟨by rw [haverage, hmass, div_mul_cancel₀ _ hne], hzero⟩

/-- Merging an event without weight changes neither the count nor the average. -/
theorem Event.Spike.envelopeWith {self event : Event} {mass : ℚ} (hself : self.Spike mass)
    (hevent : event.processedCount.toNat = 0) : (self.envelopeWith event).Spike mass := by
  have hcount : (self.envelopeWith event).processedCount.toNat = self.processedCount.toNat := by
    simp only [Event.envelopeWith, UInt32.toNat_add, hevent, Nat.add_zero]
    exact Nat.mod_eq_of_lt self.processedCount.toNat_lt
  have haverage : (self.envelopeWith event).averageLatencyUs = self.averageLatencyUs := by
    rw [self.average_envelopeWith event, hcount, hevent]
    split
    · rfl
    · rename_i hne
      have hne' : (self.processedCount.toNat : ℚ) ≠ 0 := by exact_mod_cast hne
      rw [Nat.cast_zero, mul_zero, add_zero, mul_div_cancel_right₀ _ hne']
  unfold Event.Spike
  rw [haverage, hcount]
  exact hself

/-- The event with its latency set to zero. -/
def Event.quiet (event : Event) : Event := { event with averageLatencyUs := 0 }

/-- Events without latency leave the average at 0. -/
theorem foldl_quiet {start : Event} (hstart : start.averageLatencyUs = 0) (batch : List Event) :
    ((batch.map Event.quiet).foldl Event.envelopeWith start).averageLatencyUs = 0 := by
  induction batch generalizing start with
  | nil => exact hstart
  | cons event rest ih =>
    refine ih ?_
    rw [start.average_envelopeWith event.quiet, hstart]
    split <;> simp [Event.quiet]

/-- Events without latency have none in total. -/
theorem latencyTotal_quiet (batch : List Event) :
    latencyTotal (batch.map Event.quiet : List Event) = 0 := by
  induction batch with
  | nil => rfl
  | cons event rest ih =>
    rw [List.map_cons, ← Multiset.cons_coe, ← Multiset.singleton_add, latencyTotal_add, ih]
    simp [Event.quiet]

/-- Batches without latency leave the shared average at 0. -/
theorem sharedAfter_quiet (batches : List (List Event)) {shared : Event}
    (hshared : sharedAfter (batches.map (List.map Event.quiet)) = some shared) :
    shared.averageLatencyUs = 0 := by
  induction batches using List.reverseRecOn generalizing shared with
  | nil => cases hshared
  | append_singleton batches batch ih =>
    rw [List.map_append, List.map_singleton, sharedAfter_append] at hshared
    unfold flushBatch at hshared
    cases hconsolidate : Event.consolidate (batch.map Event.quiet) with
    | none =>
      rw [hconsolidate] at hshared
      exact ih hshared
    | some consolidatedEvent =>
      have hquiet : consolidatedEvent.averageLatencyUs = 0 := by
        unfold Event.consolidate at hconsolidate
        split at hconsolidate
        · cases hconsolidate
        · cases hconsolidate
          exact foldl_quiet rfl batch
      rw [hconsolidate] at hshared
      cases hearlier : sharedAfter (batches.map (List.map Event.quiet)) with
      | none =>
        simp only [hearlier, mergeShared, Option.some.injEq] at hshared
        exact hshared ▸ hquiet
      | some earlier =>
        simp only [hearlier, mergeShared, Option.some.injEq] at hshared
        rw [← hshared, earlier.average_envelopeWith consolidatedEvent, ih hearlier, hquiet]
        simp

end spdlogger.concurrent_metrics
