import Mathlib.Algebra.BigOperators.Group.Finset.Piecewise
import Spdlogger.ConcurrentMetrics.Merge
import Spdlogger.ConcurrentMetrics.Run

namespace spdlogger.concurrent_metrics

variable {workersCount : Nat}

/-- The events of the batches one worker has merged, in its own order. -/
def flushedBy (flushed : List (Fin workersCount × List Event)) (workerId : Fin workersCount) :
    List Event :=
  (flushed.filter fun flush => flush.1 = workerId).flatMap Prod.snd

/-- A flush is entered for the worker that makes it. -/
theorem flushedBy_append (flushed : List (Fin workersCount × List Event))
    (flusher workerId : Fin workersCount) (batch : List Event) :
    flushedBy (flushed ++ [(flusher, batch)]) workerId =
      flushedBy flushed workerId ++ if flusher = workerId then batch else [] := by
  unfold flushedBy
  by_cases h : flusher = workerId <;> simp [h, List.filter_append]

/-- The shares of all workers make up everything that was flushed. -/
theorem sum_flushedBy (flushed : List (Fin workersCount × List Event)) :
    (∑ workerId, (flushedBy flushed workerId : Multiset Event)) =
      ((flushed.map Prod.snd).flatten : List Event) := by
  induction flushed using List.reverseRecOn with
  | nil => simp [flushedBy]
  | append_singleton flushed flush ih =>
    obtain ⟨flusher, batch⟩ := flush
    have hshare (workerId : Fin workersCount) :
        (flushedBy (flushed ++ [(flusher, batch)]) workerId : Multiset Event) =
          flushedBy flushed workerId + if flusher = workerId then (batch : Multiset Event) else 0 := by
      rw [flushedBy_append, ← Multiset.coe_add]
      split <;> rfl
    simp only [hshare, Finset.sum_add_distrib, ih, Finset.sum_ite_eq, Finset.mem_univ, if_true]
    simp [← Multiset.coe_add]

/-- What a worker holds in each phase when nothing throws: a batch is in flight
only between its consolidation and its merge, and an exited worker holds nothing. -/
def Worker.Consistent (worker : Worker) : Prop :=
  match worker.phase with
  | .merging _ consolidatedEvent =>
    Event.consolidate worker.inFlight = some consolidatedEvent ∧ worker.unreportedEvents = []
  | .notCreated | .exited => worker.inFlight = [] ∧ worker.unreportedEvents = []
  | .caught => False
  | .testingStop | .testingInternalStop | .creating | .flushing _ => worker.inFlight = []

/-- Every event a worker created is merged, in flight, or in its batch, in the
order of creation, and the shared data is what the merged batches amount to. -/
structure State.Conserves (s : State workersCount) : Prop where
  uncreated : ∀ index, s.main = .creatingWorker index → ∀ workerId : Fin workersCount,
    index ≤ workerId → (s.workers workerId).phase = .notCreated
  consistent : ∀ workerId, (s.workers workerId).Consistent
  created_eq : ∀ workerId, (s.workers workerId).created = flushedBy s.flushed workerId ++
    (s.workers workerId).inFlight ++ (s.workers workerId).unreportedEvents
  sharedData_eq : s.sharedData = sharedAfter (s.flushed.map Prod.snd)
  snapshots_eq : ∀ snapshot ∈ s.snapshots, ∃ flushes, flushes <+: s.flushed ∧
    snapshot = sharedAfter (flushes.map Prod.snd)

/-- Steps that leave the workers and the shared data alone. -/
theorem State.Conserves.frame {s : State workersCount} (h : s.Conserves) {stop internalStop : Bool}
    {reporter : ReporterPhase} {main : MainPhase} {reports : List (Option Event)}
    (hmain : ∀ index, main = .creatingWorker index → s.main = .creatingWorker index) :
    State.Conserves { s with stop, internalStop, reporter, main, reports } :=
  ⟨fun index hindex => h.uncreated index (hmain index hindex), h.consistent, h.created_eq,
    h.sharedData_eq, h.snapshots_eq⟩

/-- A step of one worker that touches no shared data needs to account for that
worker only. -/
theorem State.Conserves.setWorker {s : State workersCount} (h : s.Conserves)
    {workerId : Fin workersCount} {worker : Worker}
    (hphase : (s.workers workerId).phase ≠ .notCreated) (hconsistent : worker.Consistent)
    (hcreated : worker.created =
      flushedBy s.flushed workerId ++ worker.inFlight ++ worker.unreportedEvents) :
    (s.setWorker workerId worker).Conserves := by
  refine ⟨?_, ?_, ?_, h.sharedData_eq, h.snapshots_eq⟩
  · intro index hindex other hle
    by_cases hother : other = workerId
    · exact absurd (h.uncreated index hindex workerId (hother ▸ hle)) hphase
    · simpa [State.setWorker, hother] using h.uncreated index hindex other hle
  · intro other
    by_cases hother : other = workerId
    · subst hother
      simpa [State.setWorker] using hconsistent
    · simpa [State.setWorker, hother] using h.consistent other
  · intro other
    by_cases hother : other = workerId
    · subst hother
      simpa [State.setWorker] using hcreated
    · simpa [State.setWorker, hother] using h.created_eq other

/-- A new worker starts with an empty batch. -/
theorem State.Conserves.createWorker {s : State workersCount} (h : s.Conserves) {index : Nat}
    (hmain : s.main = .creatingWorker index) (hlt : index < workersCount) :
    State.Conserves { s.setWorker ⟨index, hlt⟩
        { s.workers ⟨index, hlt⟩ with phase := .testingStop } with
      main := .creatingWorker (index + 1) } := by
  have hheld := h.consistent ⟨index, hlt⟩
  simp only [Worker.Consistent, h.uncreated index hmain ⟨index, hlt⟩ le_rfl] at hheld
  refine ⟨?_, ?_, ?_, h.sharedData_eq, h.snapshots_eq⟩
  · intro next hnext other hle
    simp only [MainPhase.creatingWorker.injEq] at hnext
    have hother : other ≠ ⟨index, hlt⟩ := by
      rintro rfl
      simp only at hle
      omega
    simpa [State.setWorker, hother] using h.uncreated index hmain other (by omega)
  · intro other
    by_cases hother : other = ⟨index, hlt⟩
    · subst hother
      simpa [State.setWorker, Worker.Consistent] using hheld.1
    · simpa [State.setWorker, hother] using h.consistent other
  · intro other
    by_cases hother : other = ⟨index, hlt⟩
    · subst hother
      simpa [State.setWorker] using h.created_eq _
    · simpa [State.setWorker, hother] using h.created_eq other

/-- The merge of one worker's batch under the lock. -/
theorem State.Conserves.merge {s : State workersCount} (h : s.Conserves)
    {workerId : Fin workersCount} {last : Bool} {consolidatedEvent : Event}
    (hphase : (s.workers workerId).phase = .merging last consolidatedEvent) :
    State.Conserves { s.setWorker workerId { s.workers workerId with
        phase := .afterFlush last
        inFlight := [] } with
      sharedData := mergeShared s.sharedData consolidatedEvent
      flushed := s.flushed ++ [(workerId, (s.workers workerId).inFlight)] } := by
  have hheld := h.consistent workerId
  simp only [Worker.Consistent, hphase] at hheld
  obtain ⟨hconsolidate, hunreported⟩ := hheld
  refine ⟨?_, ?_, ?_, ?_, ?_⟩
  · intro index hindex other hle
    have hcreated := h.uncreated index hindex other hle
    by_cases hother : other = workerId
    · subst hother
      cases hphase.symm.trans hcreated
    · simpa [State.setWorker, hother] using hcreated
  · intro other
    by_cases hother : other = workerId
    · subst hother
      cases last <;> simp [State.setWorker, Worker.Consistent, WorkerPhase.afterFlush, hunreported]
    · simpa [State.setWorker, hother] using h.consistent other
  · intro other
    have hcreated := h.created_eq other
    rw [flushedBy_append]
    by_cases hother : other = workerId
    · subst hother
      simpa [State.setWorker] using hcreated
    · simpa [State.setWorker, hother, Ne.symm hother] using hcreated
  · simp only [List.map_append, List.map_singleton, sharedAfter, List.foldl_append,
      List.foldl_cons, List.foldl_nil]
    rw [flushBatch, hconsolidate, h.sharedData_eq, sharedAfter]
  · intro snapshot hsnapshot
    obtain ⟨flushes, hprefix, heq⟩ := h.snapshots_eq snapshot hsnapshot
    exact ⟨flushes, hprefix.trans (List.prefix_append _ _), heq⟩

end spdlogger.concurrent_metrics
