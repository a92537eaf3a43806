import Spdlogger.ConcurrentMetrics.Average

namespace spdlogger.concurrent_metrics

/-- The event brings an error message along. -/
def Event.reportsError (event : Event) : Bool := event.lastErrorMessage.get 0 ≠ 0

/-- The message of the last event that brings one along, else the one before. -/
def lastMessageAfter (message : Vector UInt8 128) (events : List Event) : Vector UInt8 128 :=
  (((events.filter Event.reportsError).getLast?).map Event.lastErrorMessage).getD message

/-- The last non-empty message of a list of events, empty when there is none. -/
def lastMessage (events : List Event) : Vector UInt8 128 :=
  lastMessageAfter (Vector.replicate 128 0) events

/-- What a list of events comes to, computed from all of them at once. -/
def summary (events : List Event) : Event where
  processedCount := UInt32.ofNat (processedTotal events)
  failedCount := UInt32.ofNat (failedTotal events)
  averageLatencyUs := meanLatency events
  lastErrorMessage := lastMessage events

/-- The last message of two lists of events is that of the second one, if it has any. -/
theorem lastMessageAfter_append (message : Vector UInt8 128) (events more : List Event) :
    lastMessageAfter message (events ++ more) =
      lastMessageAfter (lastMessageAfter message events) more := by
  unfold lastMessageAfter
  rw [List.filter_append, List.getLast?_append]
  cases (more.filter Event.reportsError).getLast? <;> simp

/-- The merged event has the message of the incoming one, if that has any. -/
theorem message_envelopeWith (self event : Event) :
    (self.envelopeWith event).lastErrorMessage = lastMessageAfter self.lastErrorMessage [event] := by
  unfold lastMessageAfter
  by_cases hreports : event.reportsError = true
  · have hmessage : event.lastErrorMessage[0] ≠ 0 := by simpa [Event.reportsError, Vector.get] using hreports
    simp [Event.envelopeWith, hmessage, hreports]
  · have hmessage : event.lastErrorMessage[0] = 0 := by simpa [Event.reportsError, Vector.get] using hreports
    simp [Event.envelopeWith, hmessage, hreports]

/-- Merging one event after the other leaves the last message. -/
theorem message_foldl (start : Event) (events : List Event) :
    (events.foldl Event.envelopeWith start).lastErrorMessage =
      lastMessageAfter start.lastErrorMessage events := by
  induction events generalizing start with
  | nil => rfl
  | cons event rest ih =>
    rw [List.foldl_cons, ih, message_envelopeWith, ← lastMessageAfter_append]
    rfl

/-- A consolidated batch has its last message. -/
theorem message_consolidate {batch : List Event} {consolidatedEvent : Event}
    (hconsolidate : Event.consolidate batch = some consolidatedEvent) :
    consolidatedEvent.lastErrorMessage = lastMessage batch := by
  unfold Event.consolidate at hconsolidate
  split at hconsolidate
  · cases hconsolidate
  · cases hconsolidate
    exact message_foldl {} batch

/-- A consolidated batch passes its message on, as the batch itself would have. -/
theorem lastMessageAfter_consolidate {batch : List Event} {consolidatedEvent : Event}
    (hconsolidate : Event.consolidate batch = some consolidatedEvent) (message : Vector UInt8 128) :
    lastMessageAfter message [consolidatedEvent] = lastMessageAfter message batch := by
  have hmessage := message_consolidate hconsolidate
  unfold lastMessage lastMessageAfter at hmessage
  unfold lastMessageAfter
  cases hlast : (batch.filter Event.reportsError).getLast? with
  | none =>
    have hsilent : consolidatedEvent.reportsError = false := by
      rw [hlast] at hmessage
      simp [Event.reportsError, Vector.get, hmessage]
    simp [hsilent]
  | some last =>
    have hreports : last.reportsError = true :=
      (List.mem_filter.mp (List.mem_of_getLast? hlast)).2
    rw [hlast] at hmessage
    have hpassed : consolidatedEvent.reportsError = true := by
      simpa [Event.reportsError, hmessage] using hreports
    simp [hpassed, hmessage]

/-- The shared message is the last non-empty one of all the batches. -/
theorem message_sharedAfter {batches : List (List Event)} {shared : Event}
    (hshared : sharedAfter batches = some shared) :
    shared.lastErrorMessage = lastMessage batches.flatten := by
  induction batches using List.reverseRecOn generalizing shared with
  | nil => cases hshared
  | append_singleton batches batch ih =>
    rw [sharedAfter_append, flushBatch] at hshared
    rw [List.flatten_append, List.flatten_singleton, lastMessage, lastMessageAfter_append]
    cases hconsolidate : Event.consolidate batch with
    | none =>
      rw [hconsolidate] at hshared
      rw [Event.consolidate_eq_none.mp hconsolidate, ih hshared]
      rfl
    | some consolidatedEvent =>
      rw [hconsolidate] at hshared
      cases hearlier : sharedAfter batches with
      | none =>
        -- All the batches before were empty.
        have hempty := sharedHolds_sharedAfter batches
        rw [hearlier] at hempty
        simp only [hearlier, mergeShared, Option.some.injEq] at hshared
        rw [show batches.flatten = [] by simpa [SharedHolds] using hempty, ← hshared,
          message_consolidate hconsolidate]
        rfl
      | some earlier =>
        simp only [hearlier, mergeShared, Option.some.injEq] at hshared
        rw [← hshared, message_envelopeWith, ih hearlier, lastMessageAfter_consolidate hconsolidate]
        rfl

/-- Below the wrap a summary is known by what it summarizes and its message. -/
theorem Event.Summarizes.eq_summary {event : Event} {events : List Event}
    (h : event.Summarizes events) (hroom : processedTotal (events : Multiset Event) < 2 ^ 32)
    (hmessage : event.lastErrorMessage = lastMessage events) : event = summary events := by
  have hprocessed : event.processedCount = UInt32.ofNat (processedTotal events) := by
    rw [← UInt32.toNat_inj, UInt32.toNat_ofNat', h.processed]
  have hfailed : event.failedCount = UInt32.ofNat (failedTotal events) := by
    rw [← UInt32.toNat_inj, UInt32.toNat_ofNat', h.failed]
  have haverage := h.average_eq hroom
  obtain ⟨_, _, _, _⟩ := event
  simp only at hprocessed hfailed haverage hmessage
  rw [hprocessed, hfailed, haverage, hmessage]
  rfl

/-- A batch whose counts do not wrap is consolidated to its summary. -/
theorem consolidate_eq_summary {events : List Event}
    (hroom : processedTotal (events : Multiset Event) < 2 ^ 32) (hne : events ≠ []) :
    Event.consolidate events = some (summary events) := by
  cases hconsolidate : Event.consolidate events with
  | none => exact absurd (Event.consolidate_eq_none.mp hconsolidate) hne
  | some consolidatedEvent =>
    have hsummarizes := Event.summarizes_consolidate hconsolidate
    rw [hsummarizes.eq_summary hroom (message_consolidate hconsolidate)]

/-- Permuting the events concerns the message only. -/
theorem summary_perm {events permuted : List Event} (hperm : permuted.Perm events) :
    summary permuted = { summary events with lastErrorMessage := lastMessage permuted } := by
  unfold summary
  rw [Multiset.coe_eq_coe.mpr hperm]

/-- As long as the processed counts add up to less than 2^32, the shared data after any batches
is what consolidating all their events at once gives: the sums, the failed counts modulo 2^32,
the weighted mean and the last non-empty message. The order of the events matters to the message
only. -/
theorem sharedAfter_eq_consolidate {batches : List (List Event)}
    (hroom : processedTotal (batches.flatten : Multiset Event) < 2 ^ 32) :
    sharedAfter batches = Event.consolidate batches.flatten ∧
    (batches.flatten ≠ [] →
      Event.consolidate batches.flatten = some (summary batches.flatten)) ∧
    ∀ permuted : List Event, permuted.Perm batches.flatten →
      Event.consolidate permuted = (Event.consolidate batches.flatten).map fun event =>
        { event with lastErrorMessage := lastMessage permuted } := by
  refine ⟨?_, consolidate_eq_summary hroom, ?_⟩
  · have hholds := sharedHolds_sharedAfter batches
    cases hshared : sharedAfter batches with
    | none =>
      rw [hshared] at hholds
      have hempty : batches.flatten = [] := by simpa [SharedHolds] using hholds
      exact (Event.consolidate_eq_none.mpr hempty).symm
    | some shared =>
      rw [hshared] at hholds
      obtain ⟨hne, hsummarizes⟩ := hholds
      rw [consolidate_eq_summary hroom (by simpa using hne)]
      exact congrArg some (hsummarizes.eq_summary hroom (message_sharedAfter hshared))
  · intro permuted hperm
    have hroomPermuted : processedTotal (permuted : Multiset Event) < 2 ^ 32 := by
      rw [Multiset.coe_eq_coe.mpr hperm]
      exact hroom
    by_cases hempty : permuted = []
    · subst hempty
      rw [List.nil_perm.mp hperm]
      rfl
    · have hne : batches.flatten ≠ [] := fun h => hempty (by simpa [h] using hperm)
      rw [consolidate_eq_summary hroomPermuted hempty, consolidate_eq_summary hroom hne,
        summary_perm hperm]
      rfl

/-- An empty batch and an event without weight change nothing but the message. -/
theorem sharedAfter_eq_consolidate_idle :
    let idle : Event := { lastErrorMessage := Vector.replicate 128 33 }
    let busy : Event := { processedCount := 2, averageLatencyUs := 5 }
    sharedAfter [[busy], [], [idle]] = Event.consolidate [busy, idle] :=
  (sharedAfter_eq_consolidate (by decide)).1

end spdlogger.concurrent_metrics
