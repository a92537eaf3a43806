import Spdlogger.ConcurrentMetrics.Batching
import Spdlogger.ConcurrentMetrics.Ledger
import Spdlogger.ConcurrentMetrics.Moves
import Spdlogger.Library.CBuffer

namespace spdlogger.concurrent_metrics

/-- What the distributions of `createRandom` draw. The latencies may be rounded up to the
end of their range. -/
structure RandomDraw where
  processedCount : UInt32
  failedCount : UInt32
  averageLatencyUs : ℚ
  errorId : Option UInt32
  processed : 50 ≤ processedCount ∧ processedCount ≤ 500
  failed : failedCount ≤ 10
  latency : 100 ≤ averageLatencyUs ∧ averageLatencyUs ≤ 5000
  error : ∀ id ∈ errorId, 1000 ≤ id ∧ id ≤ 9999

/-- The text that `createRandom` writes for a failure. -/
def failureMessage (id : UInt32) : List UInt8 :=
  cstring.bytes ("Random worker processing failure #".toList ++ cstring.unsigned id)

/-- The event that `createRandom` makes of what it draws. -/
def Event.createRandom (draw : RandomDraw) : Event :=
  let result : Event :=
    { processedCount := draw.processedCount
      failedCount := draw.failedCount
      averageLatencyUs := draw.averageLatencyUs }
  match draw.errorId with
  | none => result
  | some id =>
    { result with
      lastErrorMessage := (cstring.snprintf result.lastErrorMessage (failureMessage id)).1 }

/-- An event that `createRandom` can make. -/
def Event.IsRandom (event : Event) : Prop := ∃ draw, event = Event.createRandom draw

/-- Events come from `createRandom`. -/
def Action.IsRandom {workersCount : Nat} : Action workersCount → Prop
  | .createRandom _ event => event.IsRandom
  | _ => True

/-- What `data()` shows of a message is the empty text or that of a failure. -/
def IsMessage (message : Vector UInt8 128) : Prop :=
  cstring.read message = some [] ∨
    ∃ id : UInt32, 1000 ≤ id ∧ id ≤ 9999 ∧ cstring.read message = some (failureMessage id)

/-- The message of a failure fits in its buffer. -/
theorem length_failureMessage_lt (id : UInt32) : (failureMessage id).length < 128 := by
  have hdigits := cstring.length_unsigned_le id
  have hprefix : "Random worker processing failure #".toList.length = 34 := by decide
  simp only [failureMessage, cstring.bytes, List.length_map, List.length_append, hprefix]
  omega

/-- The message of a failure has no NUL in it. -/
theorem zero_notMem_failureMessage (id : UInt32) : 0 ∉ failureMessage id := by
  refine cstring.zero_notMem_bytes fun c hc => ?_
  obtain hprefix | hdigit := List.mem_append.mp hc
  · have hall : ∀ c ∈ "Random worker processing failure #".toList,
        0 < c.toNat ∧ c.toNat < 256 := by simp
    exact hall c hprefix
  · exact cstring.ascii_of_mem_unsigned hdigit

/-- The empty buffer is a message. -/
theorem isMessage_empty : IsMessage (Vector.replicate 128 0) := .inl (by decide)

/-- The message fits into its array. -/
theorem Event.IsRandom.isMessage {event : Event} (h : event.IsRandom) :
    IsMessage event.lastErrorMessage := by
  obtain ⟨draw, rfl⟩ := h
  cases hid : draw.errorId with
  | none =>
    simp only [Event.createRandom, hid]
    exact isMessage_empty
  | some id =>
    obtain ⟨hlow, hhigh⟩ := draw.error id hid
    refine .inr ⟨id, hlow, hhigh, ?_⟩
    simp only [Event.createRandom, hid]
    exact cstring.read_snprintf (length_failureMessage_lt id) (zero_notMem_failureMessage id) _

/-- The ranges of what `createRandom` draws. -/
theorem Event.IsRandom.counts {event : Event} (h : event.IsRandom) :
    (50 ≤ event.processedCount.toNat ∧ 5 * event.failedCount.toNat ≤ event.processedCount.toNat) ∧
      100 ≤ event.averageLatencyUs ∧ event.averageLatencyUs ≤ 5000 := by
  obtain ⟨draw, rfl⟩ := h
  have hprocessed : (50 : UInt32).toNat ≤ draw.processedCount.toNat := draw.processed.1
  have hfailed : draw.failedCount.toNat ≤ (10 : UInt32).toNat := draw.failed
  have hfifty : (50 : UInt32).toNat = 50 := rfl
  have hten : (10 : UInt32).toNat = 10 := rfl
  cases hid : draw.errorId with
  | none | some =>
    simp only [Event.createRandom, hid]
    exact ⟨by omega, draw.latency⟩

/-- The last message of such events is whole. -/
theorem isMessage_lastMessage {events : List Event} (hall : ∀ event ∈ events, event.IsRandom) :
    IsMessage (lastMessage events) := by
  unfold lastMessage lastMessageAfter
  cases hlast : (events.filter Event.reportsError).getLast? with
  | none => exact isMessage_empty
  | some last =>
    have hmem := (List.mem_filter.mp (List.mem_of_getLast? hlast)).1
    exact (hall last hmem).isMessage

/-- What is true of each event is true of all of them together. -/
theorem failedTotal_le {events : List Event} (hall : ∀ event ∈ events, event.IsRandom) :
    5 * failedTotal (events : Multiset Event) ≤ processedTotal (events : Multiset Event) ∧
      50 * events.length ≤ processedTotal (events : Multiset Event) := by
  induction events with
  | nil => simp
  | cons event rest ih =>
    obtain ⟨hfailed, hprocessed⟩ := ih fun other hother => hall other (List.mem_cons_of_mem _ hother)
    have hcounts := (hall event List.mem_cons_self).counts.1
    rw [← Multiset.cons_coe, ← Multiset.singleton_add]
    simp only [failedTotal_add, processedTotal_add, failedTotal_singleton, processedTotal_singleton,
      List.length_cons]
    omega

/-- What a report tells of the events behind it. -/
structure Event.Reports (event : Event) (events : List Event) : Prop where
  nonempty : events ≠ []
  processed : event.processedCount.toNat = processedTotal (events : Multiset Event) % 2 ^ 32
  failed : event.failedCount.toNat = failedTotal (events : Multiset Event) % 2 ^ 32
  share : processedTotal (events : Multiset Event) < 2 ^ 32 →
    5 * event.failedCount.toNat ≤ event.processedCount.toNat
  average : processedTotal (events : Multiset Event) < 2 ^ 32 →
    100 ≤ event.averageLatencyUs ∧ event.averageLatencyUs ≤ 5000
  message : event.lastErrorMessage = lastMessage events
  shown : IsMessage event.lastErrorMessage

/-- What is shared after batches of such events is right. -/
theorem reports_sharedAfter {batches : List (List Event)} {event : Event}
    (hshared : sharedAfter batches = some event)
    (hall : ∀ batch ∈ batches, ∀ event ∈ batch, event.IsRandom) :
    event.Reports batches.flatten := by
  have hrandom : ∀ event ∈ batches.flatten, event.IsRandom := by
    intro other hother
    obtain ⟨batch, hbatch, hmem⟩ := List.mem_flatten.mp hother
    exact hall batch hbatch other hmem
  have hholds := sharedHolds_sharedAfter batches
  rw [hshared] at hholds
  obtain ⟨hne, hsummarizes⟩ := hholds
  have hmessage := message_sharedAfter hshared
  have hnonempty : batches.flatten ≠ [] := by simpa using hne
  obtain ⟨hshare, hlength⟩ := failedTotal_le hrandom
  refine ⟨hnonempty, hsummarizes.processed, hsummarizes.failed, fun hroom => ?_, fun hroom => ?_,
    hmessage, hmessage ▸ isMessage_lastMessage hrandom⟩
  · rw [hsummarizes.processed, hsummarizes.failed, Nat.mod_eq_of_lt hroom]
    have hmod := Nat.mod_le (failedTotal (batches.flatten : Multiset Event)) (2 ^ 32)
    omega
  · have hpositive := List.length_pos_iff.mpr hnonempty
    rw [hsummarizes.average_eq hroom]
    refine meanLatency_between _ (by omega) fun other hother _ => ?_
    exact (hrandom other (by simpa using hother)).counts.2

/-- The shared data after so many of the flushes. -/
def sharedAt {workersCount : Nat} (flushed : List (Fin workersCount × List Event)) (cut : Nat) :
    Option Event := sharedAfter ((flushed.take cut).map Prod.snd)

/-- The batches of a worker, also of one that is about to throw. -/
structure Worker.Sound (worker : Worker) : Prop where
  unreported : ∀ event ∈ worker.unreportedEvents, event.IsRandom
  merging : ∀ last consolidatedEvent, worker.phase = .merging last consolidatedEvent →
    Event.consolidate worker.inFlight = some consolidatedEvent ∧
      ∀ event ∈ worker.inFlight, event.IsRandom

variable {workersCount eventBatchSize : Nat} {s next : State workersCount} {cuts : List Nat}

/-- The reports cover more and more of the flushes. -/
structure State.Covers (cuts : List Nat) (s : State workersCount) : Prop where
  workers : ∀ workerId, (s.workers workerId).Sound
  flushed : ∀ flush ∈ s.flushed, ∀ event ∈ flush.2, event.IsRandom
  sharedData : s.sharedData = sharedAfter (s.flushed.map Prod.snd)
  sorted : cuts.Pairwise (· ≤ ·)
  bounded : ∀ cut ∈ cuts, cut ≤ s.flushed.length
  reports : s.reports = cuts.map (sharedAt s.flushed)
  copy : ∀ last sharedDataCopy, s.reporter = .reporting last sharedDataCopy →
    ∃ cut, cut ≤ s.flushed.length ∧ (∀ earlier ∈ cuts, earlier ≤ cut) ∧
      sharedDataCopy = sharedAt s.flushed cut

/-- Another phase for a worker, out of those in which nothing is in flight. -/
theorem Worker.Sound.setPhase {worker : Worker} (h : worker.Sound) (phase : WorkerPhase)
    (hphase : ∀ last consolidatedEvent, phase ≠ .merging last consolidatedEvent) :
    Worker.Sound { worker with phase } :=
  ⟨h.unreported, fun last consolidatedEvent hmerging => absurd hmerging (hphase last consolidatedEvent)⟩

/-- A step that neither flushes nor reports. -/
theorem State.Covers.frame (h : s.Covers cuts) (hworkers : ∀ workerId, (next.workers workerId).Sound)
    (hflushed : next.flushed = s.flushed) (hsharedData : next.sharedData = s.sharedData)
    (hreports : next.reports = s.reports)
    (hreporter : ∀ last copy, next.reporter = .reporting last copy → next.reporter = s.reporter) :
    next.Covers cuts := by
  refine ⟨hworkers, ?_, ?_, h.sorted, ?_, ?_, fun last copy hcopy => ?_⟩
  · rw [hflushed]
    exact h.flushed
  · rw [hflushed, hsharedData]
    exact h.sharedData
  · rw [hflushed]
    exact h.bounded
  · rw [hflushed, hreports]
    exact h.reports
  · rw [hflushed]
    exact h.copy last copy ((hreporter last copy hcopy).symm.trans hcopy)

/-- A worker that moves does not touch the reports. -/
theorem State.Covers.setWorker (h : s.Covers cuts) (workerId : Fin workersCount) {worker : Worker}
    (hworker : worker.Sound) : (s.setWorker workerId worker).Covers cuts := by
  refine h.frame (fun other => ?_) rfl rfl rfl fun _ _ _ => rfl
  by_cases hother : other = workerId
  · simpa [State.setWorker, hother] using hworker
  · simpa [State.setWorker, Function.update_of_ne hother] using h.workers other

/-- `run` does not touch the reports. -/
theorem State.Covers.mainStep (h : s.Covers cuts) {succeeds : Bool}
    (hstep : s.mainStep succeeds = some next) : next.Covers cuts := by
  cases State.MainMove.of_mainStep hstep with
  | createWorker workerId hmain =>
    have hset := h.setWorker workerId ((h.workers workerId).setPhase .testingStop (by simp))
    exact hset.frame hset.workers rfl rfl rfl fun _ _ _ => rfl
  | createReporter hmain => exact h.frame h.workers rfl rfl rfl (by simp)
  | _ => exact h.frame h.workers rfl rfl rfl fun _ _ _ => rfl

/-- An earlier state of the shared data stays what it was. -/
theorem sharedAt_append {flushed : List (Fin workersCount × List Event)} {cut : Nat}
    (hcut : cut ≤ flushed.length) (flush : Fin workersCount × List Event) :
    sharedAt (flushed ++ [flush]) cut = sharedAt flushed cut := by
  rw [sharedAt, List.take_append_of_le_length hcut]
  rfl

/-- A flush adds to what later reports cover. -/
theorem State.Covers.merge (h : s.Covers cuts) {workerId : Fin workersCount} {last : Bool}
    {consolidatedEvent : Event}
    (hphase : (s.workers workerId).phase = .merging last consolidatedEvent) :
    State.Covers cuts { s.setWorker workerId { s.workers workerId with
        phase := .afterFlush last, inFlight := [] } with
      sharedData := mergeShared s.sharedData consolidatedEvent
      flushed := s.flushed ++ [(workerId, (s.workers workerId).inFlight)] } := by
  have hworker := h.workers workerId
  obtain ⟨hconsolidate, hrandom⟩ := hworker.merging last consolidatedEvent hphase
  have hset : (s.setWorker workerId { s.workers workerId with
      phase := .afterFlush last, inFlight := [] }).Covers cuts :=
    h.setWorker workerId ⟨hworker.unreported, by cases last <;> simp [WorkerPhase.afterFlush]⟩
  refine ⟨hset.workers, ?_, ?_, h.sorted, ?_, ?_, ?_⟩
  · intro flush hflush
    obtain hearlier | hlast := List.mem_append.mp hflush
    · exact h.flushed flush hearlier
    · rw [List.mem_singleton.mp hlast]
      exact hrandom
  · simp only [List.map_append, List.map_singleton, sharedAfter_append, flushBatch, hconsolidate,
      ← h.sharedData]
  · intro cut hcut
    exact (h.bounded cut hcut).trans (by simp)
  · refine h.reports.trans (List.map_congr_left fun cut hcut => ?_)
    exact (sharedAt_append (h.bounded cut hcut) _).symm
  · intro last copy hcopy
    obtain ⟨cut, hcut, hearlier, hsame⟩ := h.copy last copy hcopy
    exact ⟨cut, hcut.trans (by simp), hearlier, hsame.trans (sharedAt_append hcut _).symm⟩

/-- A step of a worker keeps the reports covered. -/
theorem State.Covers.workerStep (h : s.Covers cuts) {workerId : Fin workersCount}
    (hstep : s.workerStep workerId = some next) : next.Covers cuts := by
  have hworker := h.workers workerId
  unfold State.workerStep at hstep
  cases hphase : (s.workers workerId).phase with
  | testingStop | testingInternalStop =>
    simp only [hphase, Option.some.injEq] at hstep
    subst hstep
    refine h.setWorker workerId (hworker.setPhase _ fun last consolidatedEvent => ?_)
    split <;> simp
  | flushing last =>
    simp only [hphase] at hstep
    cases hbatch : Event.consolidate (s.workers workerId).unreportedEvents with
    | none =>
      simp only [hbatch, Option.some.injEq] at hstep
      subst hstep
      refine h.setWorker workerId (hworker.setPhase _ ?_)
      cases last <;> simp [WorkerPhase.afterFlush]
    | some consolidatedEvent =>
      simp only [hbatch, Option.some.injEq] at hstep
      subst hstep
      refine h.setWorker workerId ⟨by simp, ?_⟩
      rintro _ _ ⟨⟩
      exact ⟨hbatch, hworker.unreported⟩
  | merging last consolidatedEvent =>
    simp only [hphase, Option.some.injEq] at hstep
    subst hstep
    exact h.merge hphase
  | caught =>
    simp only [hphase, Option.some.injEq] at hstep
    subst hstep
    have hset := h.setWorker workerId (hworker.setPhase .exited (by simp))
    exact hset.frame hset.workers rfl rfl rfl fun _ _ _ => rfl
  | notCreated | creating | exited => simp [hphase] at hstep

/-- So does the creation of an event. -/
theorem State.Covers.createRandom (h : s.Covers cuts) {workerId : Fin workersCount} {event : Event}
    (hrandom : event.IsRandom) (hstep : s.createRandom eventBatchSize workerId event = some next) :
    next.Covers cuts := by
  simp only [State.createRandom, Option.ite_none_right_eq_some, Option.some.injEq] at hstep
  obtain ⟨_, rfl⟩ := hstep
  refine h.setWorker workerId ⟨fun other hother => ?_, fun last consolidatedEvent hmerging => ?_⟩
  · obtain hearlier | hlast := List.mem_append.mp hother
    · exact (h.workers workerId).unreported other hearlier
    · exact List.mem_singleton.mp hlast ▸ hrandom
  · dsimp only at hmerging
    split at hmerging <;> cases hmerging

/-- The reporter takes its copy of all that is flushed, and reports it later. -/
theorem State.Covers.reporterStep (h : s.Covers cuts) (hstep : s.reporterStep = some next) :
    ∃ cuts, next.Covers cuts := by
  unfold State.reporterStep at hstep
  cases hphase : s.reporter with
  | testingStop =>
    simp only [hphase, Option.some.injEq] at hstep
    subst hstep
    refine ⟨cuts, h.frame h.workers rfl rfl rfl fun last copy hcopy => ?_⟩
    dsimp only at hcopy
    split at hcopy <;> cases hcopy
  | testingInternalStop =>
    simp only [hphase, Option.some.injEq] at hstep
    subst hstep
    exact ⟨cuts, h.frame h.workers rfl rfl rfl (by simp)⟩
  | snapshotting last =>
    simp only [hphase, Option.some.injEq] at hstep
    subst hstep
    refine ⟨cuts, h.workers, h.flushed, h.sharedData, h.sorted, h.bounded, h.reports, ?_⟩
    rintro _ _ ⟨⟩
    refine ⟨s.flushed.length, le_rfl, h.bounded, ?_⟩
    rw [sharedAt, List.take_length]
    exact h.sharedData
  | reporting last sharedDataCopy =>
    simp only [hphase, Option.some.injEq] at hstep
    subst hstep
    obtain ⟨cut, hcut, hearlier, hsame⟩ := h.copy last sharedDataCopy hphase
    refine ⟨cuts ++ [cut], h.workers, h.flushed, h.sharedData, ?_, ?_, ?_, ?_⟩
    · rw [List.pairwise_append]
      exact ⟨h.sorted, List.pairwise_singleton _ _, by simpa using hearlier⟩
    · intro other hother
      obtain hother | hlast := List.mem_append.mp hother
      · exact h.bounded other hother
      · exact List.mem_singleton.mp hlast ▸ hcut
    · simp only [h.reports, hsame, List.map_append, List.map_singleton]
    · cases last <;> simp [ReporterPhase.afterReport]
  | caught =>
    simp only [hphase, Option.some.injEq] at hstep
    subst hstep
    exact ⟨cuts, h.frame h.workers rfl rfl rfl (by simp)⟩
  | notCreated | exited => simp [hphase] at hstep

/-- Each step keeps the reports covered. -/
theorem State.Covers.step (h : s.Covers cuts) {action : Action workersCount}
    (hrandom : action.IsRandom) (hstep : s.step eventBatchSize action = some next) :
    ∃ cuts, next.Covers cuts := by
  cases action with
  | setStop =>
    cases hstep
    exact ⟨cuts, h.frame h.workers rfl rfl rfl fun _ _ _ => rfl⟩
  | mainStep succeeds => exact ⟨cuts, h.mainStep hstep⟩
  | createRandom workerId event => exact ⟨cuts, h.createRandom hrandom hstep⟩
  | workerStep workerId => exact ⟨cuts, h.workerStep hstep⟩
  | workerThrows workerId =>
    simp only [State.step, Option.ite_none_right_eq_some, Option.some.injEq] at hstep
    obtain ⟨_, rfl⟩ := hstep
    exact ⟨cuts, h.setWorker workerId ((h.workers workerId).setPhase .caught (by simp))⟩
  | reporterStep => exact h.reporterStep hstep
  | reporterThrows =>
    simp only [State.step, Option.ite_none_right_eq_some, Option.some.injEq] at hstep
    obtain ⟨_, rfl⟩ := hstep
    exact ⟨cuts, h.frame h.workers rfl rfl rfl (by simp)⟩

/-- Also in runs with exceptions the reports cover more and more of what was merged. Each has
the sums of it, a mean within the range of the latencies as long as the counts do not wrap, and
the text of the last failure, whole. -/
theorem State.reports_of_random (hreach : (metricsMachine workersCount eventBatchSize).ReachableBy
      (fun _ action => action.IsRandom) s) :
    ∃ cuts : List Nat, cuts.Pairwise (· ≤ ·) ∧ (∀ cut ∈ cuts, cut ≤ s.flushed.length) ∧
      s.reports = cuts.map (sharedAt s.flushed) ∧
      ∀ cut event, sharedAt s.flushed cut = some event →
        event.Reports ((s.flushed.take cut).map Prod.snd).flatten := by
  have hcovers : ∃ cuts, s.Covers cuts := by
    refine transition.Machine.ReachableBy.invariant (I := fun s => ∃ cuts, s.Covers cuts) ?_ ?_ hreach
    · rintro s ⟨stop, rfl⟩
      exact ⟨[], fun _ => ⟨by simp, by simp⟩, by simp, rfl, by simp, by simp, rfl, by simp⟩
    · rintro s action next _ ⟨cuts, h⟩ hrandom hstep
      exact h.step hrandom hstep
  obtain ⟨cuts, h⟩ := hcovers
  refine ⟨cuts, h.sorted, h.bounded, h.reports, fun cut event hevent => ?_⟩
  refine reports_sharedAfter hevent fun batch hbatch => ?_
  obtain ⟨flush, hflush, rfl⟩ := List.mem_map.mp hbatch
  exact h.flushed flush (List.mem_of_mem_take hflush)

/-- A draw with an error. -/
def failingDraw : RandomDraw where
  processedCount := 100
  failedCount := 7
  averageLatencyUs := 250
  errorId := some 4711
  processed := by decide
  failed := by decide
  latency := by constructor <;> norm_num
  error := by simp

/-- One event is merged and reported. -/
theorem reports_of_random_one_failure : ∃ (s : State 1) (event : Event),
    (metricsMachine 1 1).ReachableBy (fun _ action => action.IsRandom) s ∧
      some event ∈ s.reports ∧ event.processedCount = 100 ∧ IsMessage event.lastErrorMessage := by
  obtain ⟨s, hreach, hcheck⟩ := transition.Machine.exists_reachableBy_of_run
    (M := metricsMachine 1 1) (fun _ action => action.IsRandom) (init_default 1 1)
    [.mainStep true, .mainStep true, .mainStep true, .workerStep 0, .workerStep 0,
      .createRandom 0 (.createRandom failingDraw), .workerStep 0, .workerStep 0, .reporterStep,
      .reporterStep, .reporterStep, .reporterStep]
    (by simpa [Action.IsRandom] using fun _ => ⟨failingDraw, rfl⟩)
    (fun s => s.reports.any fun report => report.any fun event => event.processedCount = 100)
    (by decide +kernel)
  obtain ⟨report, hreport, hevent⟩ := List.any_eq_true.mp hcheck
  obtain ⟨event, rfl, hprocessed⟩ := (Option.any_eq_true _ _).mp hevent
  obtain ⟨cuts, _, _, hreports, hall⟩ := State.reports_of_random hreach
  obtain ⟨cut, _, hcut⟩ := List.mem_map.mp (hreports ▸ hreport)
  exact ⟨s, event, hreach, hreport, by simpa using hprocessed, (hall cut event hcut).shown⟩

end spdlogger.concurrent_metrics
