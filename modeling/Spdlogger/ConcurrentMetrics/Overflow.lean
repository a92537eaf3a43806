import Spdlogger.ConcurrentMetrics.Average

namespace spdlogger.concurrent_metrics

/-- A batch with weight can be given latencies whose whole mass sits in its
last event with a positive count. Nothing merged after that event moves it. -/
theorem exists_spike (batch : List Event)
    (hpositive : 0 < processedTotal (batch : Multiset Event)) :
    ∃ (spiked : List Event) (mass : ℚ), spiked.map Event.processedCount =
        batch.map Event.processedCount ∧ 0 < mass ∧
      latencyTotal (spiked : Multiset Event) = mass ∧
      ∀ start : Event, start.averageLatencyUs = 0 →
        (spiked.foldl Event.envelopeWith start).Spike mass := by
  induction batch using List.reverseRecOn with
  | nil => simp at hpositive
  | append_singleton batch event ih =>
    by_cases hzero : event.processedCount.toNat = 0
    · have hearlier : 0 < processedTotal (batch : Multiset Event) := by
        rw [← Multiset.coe_add, processedTotal_add, Multiset.coe_singleton,
          processedTotal_singleton] at hpositive
        omega
      obtain ⟨spiked, mass, hcounts, hmass, hlatency, hspike⟩ := ih hearlier
      refine ⟨spiked ++ [event.quiet], mass, ?_, hmass, ?_, ?_⟩
      · simp [hcounts, Event.quiet]
      · rw [← Multiset.coe_add, latencyTotal_add, hlatency]
        simp [Event.quiet]
      · intro start hstart
        rw [List.foldl_append]
        exact (hspike start hstart).envelopeWith hzero
    · refine ⟨batch.map Event.quiet ++ [{ event with averageLatencyUs := 1 }],
        event.processedCount.toNat, ?_, ?_, ?_, ?_⟩
      · simp [Event.quiet, Function.comp_def]
      · exact_mod_cast Nat.pos_of_ne_zero hzero
      · rw [← Multiset.coe_add, latencyTotal_add, latencyTotal_quiet]
        simp
      · intro start hstart
        rw [List.foldl_append]
        exact Event.Spike.merged_into (foldl_quiet hstart batch) (.inr ⟨by simp, hzero⟩)

/-- The same for a sequence of flushes. -/
theorem exists_shared_spike (batches : List (List Event))
    (hpositive : 0 < processedTotal (batches.flatten : Multiset Event)) :
    ∃ (other : List (List Event)) (mass : ℚ), SameCounts batches other ∧ 0 < mass ∧
      latencyTotal (other.flatten : Multiset Event) = mass ∧
      ∀ shared, sharedAfter other = some shared → shared.Spike mass := by
  induction batches using List.reverseRecOn with
  | nil => simp at hpositive
  | append_singleton batches batch ih =>
    by_cases hzero : processedTotal (batch : Multiset Event) = 0
    · have hearlier : 0 < processedTotal (batches.flatten : Multiset Event) := by
        simp only [List.flatten_append, List.flatten_singleton, ← Multiset.coe_add,
          processedTotal_add] at hpositive
        omega
      obtain ⟨other, mass, hcounts, hmass, hlatency, hspike⟩ := ih hearlier
      refine ⟨other ++ [batch.map Event.quiet], mass, ?_, hmass, ?_, ?_⟩
      · unfold SameCounts at hcounts ⊢
        simp [hcounts, Event.quiet, Function.comp_def]
      · simp only [List.flatten_append, List.flatten_singleton, ← Multiset.coe_add,
          latencyTotal_add, hlatency, latencyTotal_quiet, add_zero]
      · intro shared hshared
        rw [sharedAfter_append] at hshared
        unfold flushBatch at hshared
        cases hconsolidate : Event.consolidate (batch.map Event.quiet) with
        | none =>
          rw [hconsolidate] at hshared
          exact hspike shared hshared
        | some consolidatedEvent =>
          have hsummary := Event.summarizes_consolidate hconsolidate
          have hweightless : processedTotal (batch.map Event.quiet : List Event) = 0 := by
            rw [← hzero, processedTotal_coe, processedTotal_coe]
            simp [Event.quiet, Function.comp_def]
          rw [hconsolidate] at hshared
          cases hearlier : sharedAfter other with
          | none =>
            simp only [hearlier, mergeShared, Option.some.injEq] at hshared
            exact .inl (hshared ▸ hsummary.idle hweightless)
          | some earlier =>
            simp only [hearlier, mergeShared, Option.some.injEq] at hshared
            rw [← hshared]
            refine (hspike earlier hearlier).envelopeWith ?_
            rw [hsummary.processed, hweightless, Nat.zero_mod]
    · obtain ⟨spiked, mass, hcounts, hmass, hlatency, hspike⟩ :=
        exists_spike batch (Nat.pos_of_ne_zero hzero)
      refine ⟨batches.map (List.map Event.quiet) ++ [spiked], mass, ?_, hmass, ?_, ?_⟩
      · simp [SameCounts, hcounts, Event.quiet, Function.comp_def]
      · rw [List.flatten_append, List.flatten_singleton, ← Multiset.coe_add, latencyTotal_add,
          ← List.map_flatten, latencyTotal_quiet, zero_add, hlatency]
      · intro shared hshared
        rw [sharedAfter_append] at hshared
        have hnonempty : spiked ≠ [] := by
          rintro rfl
          rw [← hlatency] at hmass
          simp at hmass
        have hconsolidate : Event.consolidate spiked =
            some (spiked.foldl Event.envelopeWith {}) := by
          simp [Event.consolidate, hnonempty]
        have hbatch := hspike {} rfl
        simp only [flushBatch, hconsolidate] at hshared
        cases hearlier : sharedAfter (batches.map (List.map Event.quiet)) with
        | none =>
          simp only [hearlier, mergeShared, Option.some.injEq] at hshared
          exact hshared ▸ hbatch
        | some earlier =>
          simp only [hearlier, mergeShared, Option.some.injEq] at hshared
          rw [← hshared]
          exact Event.Spike.merged_into (sharedAfter_quiet batches hearlier) hbatch

/-- For given processed counts the merged average is the weighted mean of the events, whatever
their latencies, exactly as long as the true total count fits the 32-bit counter. -/
theorem averagesTruly_iff (batches : List (List Event)) :
    (∀ other, SameCounts batches other → AveragesTruly other) ↔
      processedTotal (batches.flatten : Multiset Event) < 2 ^ 32 := by
  constructor
  · intro htrue
    by_contra hwraps
    obtain ⟨other, mass, hcounts, hmass, hlatency, hspike⟩ :=
      exists_shared_spike batches (by omega)
    have htotal := hcounts.processedTotal_eq
    have hholds := sharedHolds_sharedAfter other
    cases hshared : sharedAfter other with
    | none =>
      rw [hshared] at hholds
      simp only [SharedHolds] at hholds
      rw [hholds, processedTotal_zero] at htotal
      omega
    | some shared =>
      rw [hshared] at hholds
      have hmean := (htrue other hcounts shared hshared (by omega)).1
      have hpositive : (0 : ℚ) < processedTotal (other.flatten : Multiset Event) := by
        rw [htotal]
        exact_mod_cast (by omega : 0 < processedTotal (batches.flatten : Multiset Event))
      rw [meanLatency, hlatency] at hmean
      rcases hspike shared hshared with hsilent | ⟨hpeak, _⟩
      · have := div_pos hmass hpositive
        linarith
      · -- The denominator the code used is the wrapped count, not the total.
        have hwrapped : shared.processedCount.toNat < 2 ^ 32 := shared.processedCount.toNat_lt
        rw [hmean, div_mul_eq_mul_div, div_eq_iff hpositive.ne'] at hpeak
        have heq := mul_left_cancel₀ hmass.ne' hpeak
        have hcount : shared.processedCount.toNat =
            processedTotal (other.flatten : Multiset Event) := by exact_mod_cast heq
        omega
  · intro hroom other hcounts
    exact averagesTruly_of_lt (by rw [hcounts.processedTotal_eq]; exact hroom)

/-- Events of one latency average to that latency. -/
theorem AveragesTruly.uniform {batches : List (List Event)} (htrue : AveragesTruly batches)
    {latency : ℚ} (huniform : ∀ event ∈ batches.flatten, event.averageLatencyUs = latency)
    (hpositive : 0 < processedTotal (batches.flatten : Multiset Event)) {shared : Event}
    (hshared : sharedAfter batches = some shared) : shared.averageLatencyUs = latency := by
  have hbounds := (htrue shared hshared hpositive).2 latency latency fun event hevent _ =>
    ⟨(huniform event hevent).ge, (huniform event hevent).le⟩
  exact le_antisymm hbounds.2 hbounds.1

/-- The total of equal events. -/
theorem processedTotal_replicate (n : Nat) (event : Event) :
    processedTotal (List.replicate n event : List Event) = n * event.processedCount.toNat := by
  simp [processedTotal]

/-- A merge at one latency keeps it only if the 32-bit count did not wrap. -/
theorem Event.envelopeWith_uniform {self event : Event} {latency : ℚ} (hlatency : latency ≠ 0)
    (hself : self.averageLatencyUs = latency) (hevent : event.averageLatencyUs = latency)
    (hmerged : (self.envelopeWith event).averageLatencyUs = latency)
    (hne : (self.envelopeWith event).processedCount.toNat ≠ 0) :
    (self.envelopeWith event).processedCount.toNat =
      self.processedCount.toNat + event.processedCount.toNat := by
  have hne' : ((self.envelopeWith event).processedCount.toNat : ℚ) ≠ 0 := by exact_mod_cast hne
  have haverage := self.average_envelopeWith event
  rw [if_neg hne, hmerged, hself, hevent, ← mul_add, eq_div_iff hne'] at haverage
  exact_mod_cast mul_left_cancel₀ hlatency haverage

/-- A flush that takes the total past the counter, without landing on zero,
loses the latency all events share. -/
theorem not_averagesTruly_of_wrap {batches : List (List Event)} {batch : List Event} {latency : ℚ}
    (hlatency : latency ≠ 0)
    (huniform : ∀ event ∈ batches.flatten ++ batch, event.averageLatencyUs = latency)
    (hearlier : 0 < processedTotal (batches.flatten : Multiset Event) ∧
      processedTotal (batches.flatten : Multiset Event) < 2 ^ 32)
    (hlast : 0 < processedTotal (batch : Multiset Event) ∧
      processedTotal (batch : Multiset Event) < 2 ^ 32)
    (hwraps : 2 ^ 32 < processedTotal (batches.flatten : Multiset Event) +
      processedTotal (batch : Multiset Event)) :
    ¬ AveragesTruly (batches ++ [batch]) := by
  intro htrue
  have hholds := sharedHolds_sharedAfter batches
  cases hshared : sharedAfter batches with
  | none =>
    rw [hshared] at hholds
    simp only [SharedHolds] at hholds
    simp [hholds] at hearlier
  | some earlier =>
    rw [hshared] at hholds
    have hearlierAverage := (averagesTruly_of_lt hearlier.2).uniform
      (fun event hevent => huniform event (List.mem_append_left _ hevent)) hearlier.1 hshared
    cases hconsolidate : Event.consolidate batch with
    | none => simp [Event.consolidate_eq_none.mp hconsolidate] at hlast
    | some consolidatedEvent =>
      have hsummary := Event.summarizes_consolidate hconsolidate
      have hbatchShared : sharedAfter [batch] = some consolidatedEvent := by
        simp [sharedAfter, flushBatch, hconsolidate, mergeShared]
      have hbatchAverage := (averagesTruly_of_lt (by simpa using hlast.2)).uniform
        (fun event hevent => huniform event (List.mem_append_right _ (by simpa using hevent)))
        (by simpa using hlast.1) hbatchShared
      have hmerged : sharedAfter (batches ++ [batch]) =
          some (earlier.envelopeWith consolidatedEvent) := by
        simp only [sharedAfter_append, hshared, flushBatch, hconsolidate, mergeShared]
      have htotal : processedTotal ((batches ++ [batch]).flatten : Multiset Event) =
          processedTotal (batches.flatten : Multiset Event) +
            processedTotal (batch : Multiset Event) := by
        rw [List.flatten_append, List.flatten_singleton, ← Multiset.coe_add, processedTotal_add]
      have haverage := htrue.uniform (by simpa using huniform) (by omega) hmerged
      have hmine := hholds.2.processed
      have hincoming := hsummary.processed
      have hweight := (hholds.2.envelopeWith hsummary.toWeighs).processed
      rw [processedTotal_add] at hweight
      have hsum := Event.envelopeWith_uniform hlatency hearlierAverage hbatchAverage haverage
        (by omega)
      omega

/-- A stress run of 8589935 events of 500 requests and 1000 µs each: the last
flush takes the total count to 2 ^ 32 + 204. -/
theorem not_averagesTruly_long_run :
    ¬ AveragesTruly (List.replicate 134217
        (List.replicate 64 { processedCount := 500, averageLatencyUs := 1000 }) ++
      [List.replicate 47 { processedCount := 500, averageLatencyUs := 1000 }]) := by
  have hlatency : (1000 : ℚ) ≠ 0 := by norm_num
  refine not_averagesTruly_of_wrap hlatency ?_ ?_ ?_ ?_
  · intro event hevent
    rw [List.flatten_replicate_replicate, List.replicate_append_replicate] at hevent
    rw [List.eq_of_mem_replicate hevent]
  all_goals simp only [List.flatten_replicate_replicate, processedTotal_replicate]; decide

end spdlogger.concurrent_metrics
