import Spdlogger.Diagnostics.Reports
import Spdlogger.Library.TwoThreads

namespace spdlogger.diagnostics

open two_threads (Side Bodies)

/-- What `run` tells of its threads behind the joins. -/
structure ReportSummary where
  iterations : Int := 0
  metricCount : Int := 0
  deriving DecidableEq, Repr

/-- The thread that takes the step. -/
def Action.side : Action → Option Side
  | .stop => none
  | .collectorStep | .iterate _ => some .first
  | .reporterStep => some .second

/-- The thread is through and can be joined. -/
def State.exited (s : State) : Side → Bool
  | .first => s.collector = .exited
  | .second => s.reporter = .exited

/-- `run`, with what it logs behind the joins. -/
def bodies (stress : Bool) : Bodies State Action ReportSummary where
  machine := diagnosticsMachine stress
  side := Action.side
  exited := State.exited
  finish s := ⟨s.iteration, s.metrics.keys.length⟩

/-- The thread is where it starts. -/
def State.fresh (s : State) : Side → Prop
  | .first => s.collector = .testing
  | .second => s.reporter = .testing

/-- The steps that the collector takes at most once `stop` is set. -/
def CollectorPhase.stepsLeft : CollectorPhase → Nat
  | .exited => 0
  | .testing => 1
  | .sleeping => 2
  | .appending order index => 3 + (order.length - index)
  | .iterating => 7
  | .writingLabel _ => 8
  | .writingRate _ => 9
  | .writingIteration _ => 10
  | .locking _ => 11
  | .fetching => 12

/-- The steps the reporter has left once `stop` is set. -/
def ReporterPhase.stepsLeft : ReporterPhase → Nat
  | .exited => 0
  | .testing => 1
  | .sleeping => 2
  | .logging _ _ => 3
  | .counting _ => 4
  | .swapping => 5
  | .locking => 6

/-- The steps both threads have left once `stop` is set. -/
def State.stepsLeft (s : State) : Nat := s.collector.stepsLeft + s.reporter.stepsLeft

variable {stress : Bool} {s next : State}

/-- What a step does to the threads and to `stop`. -/
theorem State.frame_of_step {action : Action} (hstep : s.step stress action = some next) :
    (action.side ≠ some .first → next.collector = s.collector ∧ next.iteration = s.iteration ∧
        next.metrics = s.metrics) ∧
      (action.side ≠ some .second → next.reporter = s.reporter) ∧
      next.stop = (s.stop || action.side.isNone) := by
  cases action with
  | stop =>
    cases hstep
    simp [Action.side]
  | iterate order =>
    simp only [State.step, Option.ite_none_right_eq_some, Option.some.injEq] at hstep
    obtain ⟨_, rfl⟩ := hstep
    simp [Action.side]
  | collectorStep =>
    refine ⟨by simp [Action.side], fun _ => ?_, ?_⟩ <;>
    · simp only [State.step, State.collectorStep] at hstep
      cases hphase : s.collector with
      | locking i =>
        simp only [hphase, Option.map_eq_some_iff, State.scopedLock_eq_some_iff] at hstep
        obtain ⟨_, ⟨_, rfl⟩, rfl⟩ := hstep
        simp [Action.side]
      | appending order index =>
        simp only [hphase] at hstep
        split at hstep
        · obtain ⟨value, _, rfl⟩ := Option.map_eq_some_iff.mp hstep
          simp [Action.side]
        · cases hstep
          simp [Action.side]
      | iterating | exited => simp [hphase] at hstep
      | _ =>
        simp only [hphase, Option.some.injEq] at hstep
        subst hstep
        simp [Action.side, State.scopedUnlock]
  | reporterStep =>
    refine ⟨fun _ => ?_, by simp [Action.side], ?_⟩ <;>
    · simp only [State.step, State.reporterStep] at hstep
      cases hphase : s.reporter with
      | locking =>
        simp only [hphase, Option.map_eq_some_iff, State.scopedLock_eq_some_iff] at hstep
        obtain ⟨_, ⟨_, rfl⟩, rfl⟩ := hstep
        simp [Action.side]
      | exited => simp [hphase] at hstep
      | _ =>
        simp only [hphase, Option.some.injEq] at hstep
        subst hstep
        simp [Action.side, State.scopedUnlock]

/-- The collector is started first. -/
def Thread.side : Thread → Side
  | .collector => .first
  | .reporter => .second

/-- A thread that holds the locks has been started. -/
theorem State.not_fresh_of_inside {thread : Thread} (hinside : s.inside thread = true) :
    ¬ s.fresh thread.side := by
  intro hfresh
  cases thread with
  | collector =>
    rw [State.inside, show s.collector = .testing from hfresh] at hinside
    cases hinside
  | reporter =>
    rw [State.inside, show s.reporter = .testing from hfresh] at hinside
    cases hinside

/-- A thread with the locks can go on. -/
theorem State.exists_step_of_inside (hreach : (diagnosticsMachine stress).Reachable s)
    {thread : Thread} (hinside : s.inside thread = true) :
    ∃ action, Action.side action = some thread.side ∧ s.step stress action ≠ none := by
  cases thread with
  | collector =>
    cases hphase : s.collector with
    | iterating => exact ⟨.iterate s.metrics.keys, rfl, by simp [State.step, hphase]⟩
    | appending order index =>
      refine ⟨.collectorStep, rfl, ?_⟩
      obtain ⟨chunks, unread, hcollected, _⟩ := State.kept_of_reachable hreach
      cases hkey : order[index]? with
      | none => simp [State.step, State.collectorStep, hphase, hkey]
      | some key =>
        -- the loop meets keys of the map only
        have hmem := (hcollected.ordered order index hphase).mem_iff.mp (List.mem_of_getElem? hkey)
        have hmapped := hcollected.keys_of_written (by rw [hphase]; rfl) key hmem
        obtain ⟨value, hvalue⟩ := Option.isSome_iff_exists.mp (AList.lookup_isSome.mpr hmapped)
        simp [State.step, State.collectorStep, hphase, hkey, hvalue]
    | writingIteration | writingRate | writingLabel | sleeping =>
      exact ⟨.collectorStep, rfl, by simp [State.step, State.collectorStep, hphase]⟩
    | testing | fetching | locking | exited => simp [State.inside, hphase, CollectorPhase.holds] at hinside
  | reporter =>
    refine ⟨.reporterStep, rfl, ?_⟩
    cases hphase : s.reporter with
    | swapping | counting => simp [State.step, State.reporterStep, hphase]
    | _ => simp [State.inside, hphase, ReporterPhase.holds] at hinside

/-- The locks are free for a thread, or the other one is at work. -/
theorem State.exists_step_of_locking (hreach : (diagnosticsMachine stress).Reachable s)
    (thread : Thread) (hlocks : (s.scopedLock thread).isSome → ∃ action,
      Action.side action = some thread.side ∧ s.step stress action ≠ none) :
    ∃ action mover, Action.side action = some mover ∧ (mover = thread.side ∨ ¬ s.fresh mover) ∧
      s.step stress action ≠ none := by
  have hlocked := State.locked_of_reachable hreach
  cases howner : s.metricsMutex with
  | none =>
    obtain ⟨action, hside, henabled⟩ := hlocks (by simp [State.scopedLock, hlocked.same, howner])
    exact ⟨action, thread.side, hside, .inl rfl, henabled⟩
  | some other =>
    have hinside : s.inside other = true := (hlocked.heldBy other).mpr howner
    obtain ⟨action, hside, henabled⟩ := State.exists_step_of_inside hreach hinside
    exact ⟨action, other.side, hside, .inr (State.not_fresh_of_inside hinside), henabled⟩

/-- While a side has not exited, it has a step, or the side that holds the locks against it has. -/
theorem State.exists_step_of_not_exited (hreach : (diagnosticsMachine stress).Reachable s)
    {side : Side} (hside : s.exited side = false) : ∃ action mover,
      Action.side action = some mover ∧ (mover = side ∨ ¬ s.fresh mover) ∧
        s.step stress action ≠ none := by
  have hinside (thread : Thread) (hinside : s.inside thread = true) : ∃ action mover,
      Action.side action = some mover ∧ (mover = thread.side ∨ ¬ s.fresh mover) ∧
        s.step stress action ≠ none := by
    obtain ⟨action, hside, henabled⟩ := State.exists_step_of_inside hreach hinside
    exact ⟨action, thread.side, hside, .inl rfl, henabled⟩
  cases side with
  | first =>
    cases hphase : s.collector with
    | exited => simp [State.exited, hphase] at hside
    | testing | fetching =>
      exact ⟨.collectorStep, .first, rfl, .inl rfl, by simp [State.step, State.collectorStep, hphase]⟩
    | locking i =>
      refine State.exists_step_of_locking hreach .collector fun hfree =>
        ⟨.collectorStep, rfl, ?_⟩
      obtain ⟨held, hheld⟩ := Option.isSome_iff_exists.mp hfree
      simp [State.step, State.collectorStep, hphase, hheld]
    | _ => exact hinside .collector (congrArg CollectorPhase.holds hphase)
  | second =>
    cases hphase : s.reporter with
    | exited => simp [State.exited, hphase] at hside
    | testing | logging | sleeping =>
      exact ⟨.reporterStep, .second, rfl, .inl rfl, by simp [State.step, State.reporterStep, hphase]⟩
    | locking =>
      refine State.exists_step_of_locking hreach .reporter fun hfree =>
        ⟨.reporterStep, rfl, ?_⟩
      obtain ⟨held, hheld⟩ := Option.isSome_iff_exists.mp hfree
      simp [State.step, State.reporterStep, hphase, hheld]
    | _ => exact hinside .reporter (congrArg ReporterPhase.holds hphase)

/-- Once `stop` is set, a round is the last. -/
theorem State.stepsLeft_lt (hreach : (diagnosticsMachine stress).Reachable s) (hstop : s.stop = true)
    {action : Action} (hside : action.side.isSome = true)
    (hstep : s.step stress action = some next) : next.stepsLeft < s.stepsLeft := by
  cases action with
  | stop => cases hside
  | iterate order =>
    have hreachNext : (diagnosticsMachine stress).Reachable next :=
      hreach.step (a := .iterate order) hstep
    simp only [State.step, Option.ite_none_right_eq_some, Option.some.injEq] at hstep
    obtain ⟨⟨hphase, _⟩, rfl⟩ := hstep
    obtain ⟨chunks, unread, hcollected, _⟩ := State.kept_of_reachable hreachNext
    have hlength : order.length = 3 := (hcollected.ordered order 0 rfl).length_eq
    simp [State.stepsLeft, hphase, CollectorPhase.stepsLeft, hlength]
  | collectorStep =>
    have hreporter := (State.frame_of_step hstep).2.1 (by simp [Action.side])
    unfold State.stepsLeft
    rw [hreporter]
    refine Nat.add_lt_add_right ?_ _
    simp only [State.step, State.collectorStep] at hstep
    cases hphase : s.collector with
    | locking i =>
      simp only [hphase, Option.map_eq_some_iff] at hstep
      obtain ⟨_, _, rfl⟩ := hstep
      simp [CollectorPhase.stepsLeft]
    | appending order index =>
      simp only [hphase] at hstep
      split at hstep
      · rename_i key hkey
        obtain ⟨value, _, rfl⟩ := Option.map_eq_some_iff.mp hstep
        have hindex := (List.getElem?_eq_some_iff.mp hkey).1
        simp only [CollectorPhase.stepsLeft]
        omega
      · cases hstep
        simp only [CollectorPhase.stepsLeft]
        omega
    | iterating | exited => simp [hphase] at hstep
    | _ =>
      simp only [hphase, hstop, Option.some.injEq] at hstep
      subst hstep
      simp [CollectorPhase.stepsLeft]
  | reporterStep =>
    have hcollector := ((State.frame_of_step hstep).1 (by simp [Action.side])).1
    unfold State.stepsLeft
    rw [hcollector]
    refine Nat.add_lt_add_left ?_ _
    simp only [State.step, State.reporterStep] at hstep
    cases hphase : s.reporter with
    | locking =>
      simp only [hphase, Option.map_eq_some_iff] at hstep
      obtain ⟨_, _, rfl⟩ := hstep
      simp [ReporterPhase.stepsLeft]
    | exited => simp [hphase] at hstep
    | _ =>
      simp only [hphase, hstop, Option.some.injEq] at hstep
      subst hstep
      simp [ReporterPhase.stepsLeft]

/-- The two bodies meet the laws of a pair of threads that `stop` ends. -/
theorem lawful_bodies :
    (bodies stress).Lawful State.fresh (fun s => s.stop = true) State.stepsLeft where
  fresh_init s side hinit := by
    cases hinit
    cases side <;> rfl
  fresh_step s action next side hfresh hother hstep := by
    obtain ⟨hcollector, hreporter, _⟩ := State.frame_of_step hstep
    cases side with
    | first => exact (hcollector hother).1.trans hfresh
    | second => exact (hreporter hother).trans hfresh
  exited_step s action next side hexited hother hstep := by
    obtain ⟨hcollector, hreporter, _⟩ := State.frame_of_step hstep
    cases side with
    | first => simpa [bodies, State.exited, (hcollector hother).1] using hexited
    | second => simpa [bodies, State.exited, hreporter hother] using hexited
  stuck s action side hexited hside := by
    cases side with
    | first =>
      have hphase : s.collector = .exited := by simpa [bodies, State.exited] using hexited
      cases action with
      | collectorStep | iterate =>
        simp [bodies, diagnosticsMachine, State.step, State.collectorStep, hphase]
      | stop | reporterStep => cases hside
    | second =>
      have hphase : s.reporter = .exited := by simpa [bodies, State.exited] using hexited
      cases action with
      | reporterStep => simp [bodies, diagnosticsMachine, State.step, State.reporterStep, hphase]
      | stop | collectorStep | iterate => cases hside
  finish_step s action next hside hstep := by
    obtain ⟨_, hiteration, hmetrics⟩ := (State.frame_of_step hstep).1
      (by rw [show action.side = none from hside]; simp)
    simp only [bodies, hiteration, hmetrics]
  goes s side hreach hexited := State.exists_step_of_not_exited hreach hexited
  told_step s action next hstop hstep := by
    rw [(State.frame_of_step hstep).2.2, hstop]
    rfl
  spends s action next hreach hstop hside hstep := State.stepsLeft_lt hreach hstop hside hstep
  keeps s action next hside hstep := by
    have hnone : action.side = none := hside
    obtain ⟨hcollector, hreporter, _⟩ := State.frame_of_step hstep
    rw [State.stepsLeft, (hcollector (by simp [hnone])).1, hreporter (by simp [hnone]), ← State.stepsLeft]

/-- What the threads have written, drained or not. -/
def State.text (s : State) : String := String.join s.drained ++ s.logBuffer

/-- The map is empty until the first line is begun. -/
structure State.Begun (s next : State) : Prop where
  text : ∃ more, next.text = s.text ++ more
  metrics : next.metrics = s.metrics ∨ next.collector.fetched = true
  line : s.collector.fetched = true → next.collector.fetched = true ∨ ∃ more, next.text = more ++ "\n"

/-- Each step only adds to the text, and the map changes only once a line is begun. -/
theorem State.begun_of_step {action : Action} (hstep : s.step stress action = some next) :
    s.Begun next := by
  cases action with
  | stop =>
    cases hstep
    exact ⟨⟨"", by simp [State.text]⟩, .inl rfl, .inl⟩
  | iterate order =>
    simp only [State.step, Option.ite_none_right_eq_some, Option.some.injEq] at hstep
    obtain ⟨_, rfl⟩ := hstep
    exact ⟨⟨"", by simp [State.text]⟩, .inl rfl, fun _ => .inl rfl⟩
  | collectorStep =>
    simp only [State.step, State.collectorStep] at hstep
    cases hphase : s.collector with
    | locking i =>
      simp only [hphase, Option.map_eq_some_iff, State.scopedLock_eq_some_iff] at hstep
      obtain ⟨_, ⟨_, rfl⟩, rfl⟩ := hstep
      exact ⟨⟨"", by simp [State.text]⟩, .inl rfl, fun _ => .inl rfl⟩
    | appending order index =>
      simp only [hphase] at hstep
      split at hstep
      · obtain ⟨value, _, rfl⟩ := Option.map_eq_some_iff.mp hstep
        exact ⟨⟨_, (String.append_assoc ..).symm⟩, .inl rfl, fun _ => .inl rfl⟩
      · cases hstep
        exact ⟨⟨_, (String.append_assoc ..).symm⟩, .inl rfl,
          fun _ => .inr ⟨_, (String.append_assoc ..).symm⟩⟩
    | writingIteration | writingRate | writingLabel =>
      simp only [hphase, Option.some.injEq] at hstep
      subst hstep
      exact ⟨⟨"", by simp [State.text]⟩, .inr rfl, fun _ => .inl rfl⟩
    | fetching =>
      simp only [hphase, Option.some.injEq] at hstep
      subst hstep
      exact ⟨⟨"", by simp [State.text]⟩, .inl rfl, fun _ => .inl rfl⟩
    | testing | sleeping =>
      simp only [hphase, Option.some.injEq] at hstep
      subst hstep
      refine ⟨⟨"", by simp [State.text, State.scopedUnlock]⟩, .inl rfl, fun hfetched => ?_⟩
      rw [hphase] at hfetched
      cases hfetched
    | iterating | exited => simp [hphase] at hstep
  | reporterStep =>
    obtain ⟨hcollector, _, hmetrics⟩ := (State.frame_of_step hstep).1 (by simp [Action.side])
    refine ⟨⟨"", ?_⟩, .inl hmetrics, fun hfetched => .inl (hcollector ▸ hfetched)⟩
    simp only [State.step, State.reporterStep] at hstep
    cases hphase : s.reporter with
    | locking =>
      simp only [hphase, Option.map_eq_some_iff, State.scopedLock_eq_some_iff] at hstep
      obtain ⟨_, ⟨_, rfl⟩, rfl⟩ := hstep
      simp [State.text]
    | exited => simp [hphase] at hstep
    | _ =>
      simp only [hphase, Option.some.injEq] at hstep
      subst hstep
      simp [State.text, State.scopedUnlock, String.join_append]

/-- The map is empty, unless a line is begun or something is written. -/
theorem State.metrics_eq_empty (hreach : (diagnosticsMachine stress).Reachable s) :
    s.metrics = ∅ ∨ s.collector.fetched = true ∨ s.text ≠ "" := by
  refine transition.Machine.Reachable.invariant
    (I := fun s => s.metrics = ∅ ∨ s.collector.fetched = true ∨ s.text ≠ "") ?_ ?_ hreach
  · rintro s rfl
    exact .inl rfl
  · intro s action next h hstep
    obtain ⟨⟨more, htext⟩, hmetrics, hline⟩ := State.begun_of_step hstep
    obtain hempty | hfetched | hwritten := h
    · exact hmetrics.imp (fun hsame => hsame.trans hempty) .inl
    · obtain hfetched | ⟨before, hbefore⟩ := hline hfetched
      · exact .inr (.inl hfetched)
      · exact .inr (.inr (by simp [hbefore]))
    · exact .inr (.inr (by simp [htext, hwritten]))

/-- The two threads never have more than eighteen steps left. -/
theorem State.stepsLeft_le (hreach : (diagnosticsMachine stress).Reachable s) : s.stepsLeft ≤ 18 := by
  have hcollector : s.collector.stepsLeft ≤ 12 := by
    cases hphase : s.collector with
    | appending order index =>
      obtain ⟨chunks, unread, hcollected, _⟩ := State.kept_of_reachable hreach
      have hlength : order.length = 3 := (hcollected.ordered order index hphase).length_eq
      simp only [CollectorPhase.stepsLeft]
      omega
    | _ => simp [CollectorPhase.stepsLeft]
  have hreporter : s.reporter.stepsLeft ≤ 6 := by
    cases s.reporter <;> simp [ReporterPhase.stepsLeft]
  unfold State.stepsLeft
  omega

/-- What the collector leaves behind. -/
theorem State.lines_of_exited (hreach : (diagnosticsMachine stress).Reachable s)
    (hexited : s.collector = .exited) : ∃ (chunks : List (List String)) (unread : List String),
      (∀ i line, (chunks.flatten ++ unread)[i]? = some line → IsLine stress (counter i) line) ∧
      s.drained = chunks.map String.join ∧ s.logBuffer = String.join unread ∧
      s.iteration = counter (chunks.flatten ++ unread).length ∧
      s.metrics.keys.length = if chunks.flatten ++ unread = [] then 0 else 3 := by
  obtain ⟨chunks, unread, hcollected, hbuffered, _⟩ := State.kept_of_reachable hreach
  have hopen : s.openLine = "" := State.openLine_eq_empty (by simp [hexited])
  have hbuffer : s.logBuffer = String.join unread := by
    rw [hbuffered.logBuffer, hopen, String.append_empty]
  refine ⟨chunks, unread, hbuffered.lines, hbuffered.drained, hbuffer, ?_, ?_⟩
  · have hcounted := hcollected.counted
    rw [hexited] at hcounted
    exact hcounted
  · split
    · rename_i hnone
      obtain hempty | hfetched | hwritten := State.metrics_eq_empty hreach
      · simp [hempty]
      · rw [hexited] at hfetched
        cases hfetched
      · refine absurd ?_ hwritten
        rw [State.text, hbuffered.drained, hbuffer, join_map_join, ← String.join_append, hnone]
        rfl
    · rename_i hsome
      exact (hcollected.keys_perm (hcollected.full hsome)).length_eq

/-- What the reporter leaves behind: it has a report for every text that was not empty. -/
theorem State.reports_of_exited (hreach : (diagnosticsMachine stress).Reachable s)
    (hexited : s.reporter = .exited) :
    s.reports = (nonEmpty s.drained).map fun text => (3, text) := by
  obtain ⟨chunks, unread, _, _, hreported⟩ := State.kept_of_reachable hreach
  have htexts := hreported.texts
  rw [hexited] at htexts
  have hall : s.reports.map Prod.snd = nonEmpty s.drained := by
    rw [← htexts]
    exact (List.append_nil _).symm
  rw [← hall, List.map_map]
  refine (List.map_id s.reports).symm.trans (List.map_congr_left fun report hreport => ?_)
  exact Prod.ext (hreported.counts report hreport) rfl

/-- The whole run. It does not end before the threads that it could start, and as long as
it has not ended it can go on. Once `stop` is set, 23 steps are the most. The summary counts
the lines, and the metrics that each of them has; the reports are of the texts that were
drained and were not empty, made of whole lines, and the rest of the lines is in the buffer. -/
theorem run_summary {s : two_threads.Run State ReportSummary}
    (hreach : (bodies stress).runMachine.Reachable s) :
    (s.isOver = true → ∀ side, s.created side = true → s.threads.exited side = true) ∧
      ((bodies stress).runMachine.Quiescent (bodies stress).isOwn s → s.isOver = true) ∧
      (s.threads.stop = true → ∀ schedule last, (bodies stress).runMachine.run s schedule = some last →
        schedule.countP (bodies stress).isOwn ≤ 23) ∧
      ∀ summary, s.result = some summary →
        ∃ (chunks : List (List String)) (unread : List String),
          (∀ i line, (chunks.flatten ++ unread)[i]? = some line → IsLine stress (counter i) line) ∧
          s.threads.drained = chunks.map String.join ∧ s.threads.logBuffer = String.join unread ∧
          s.threads.reports = (nonEmpty s.threads.drained).map (fun text => (3, text)) ∧
          summary.iterations = counter (chunks.flatten ++ unread).length ∧
          summary.metricCount = if chunks.flatten ++ unread = [] then 0 else 3 := by
  refine ⟨fun hover side => two_threads.Run.exited_of_isOver lawful_bodies hreach hover,
    two_threads.Run.isOver_of_quiescent lawful_bodies hreach, ?_, ?_⟩
  · intro hstop schedule last hrun
    have hbound := two_threads.Run.countP_le lawful_bodies hreach hstop hrun
    have hthreads := State.stepsLeft_le (two_threads.Run.sound_of_reachable lawful_bodies hreach).reachable
    have hphase := s.phase.stepsLeft_le
    omega
  · intro summary hsummary
    have hsound := two_threads.Run.sound_of_reachable lawful_bodies hreach
    obtain ⟨hphase, rfl⟩ := hsound.result summary hsummary
    have hexited (side : Side) : s.threads.exited side = true := by
      have hcreated := (hsound.created side).resolve_right (by simp [hphase])
      rw [hphase] at hcreated
      exact hsound.joined side hcreated (by rw [hphase]; rfl)
    obtain ⟨chunks, unread, hlines, hdrained, hbuffer, hiteration, hmetrics⟩ :=
      State.lines_of_exited hsound.reachable (by simpa [State.exited] using hexited .first)
    have hreports := State.reports_of_exited hsound.reachable
      (by simpa [State.exited] using hexited .second)
    refine ⟨chunks, unread, hlines, hdrained, hbuffer, hreports, hiteration, ?_⟩
    simp only [bodies, hmetrics]
    split <;> rfl

/-- Two lines, of which one is reported and one stays in the buffer. -/
theorem run_summary_two_lines : ∃ s : two_threads.Run State ReportSummary,
    (bodies true).runMachine.Reachable s ∧ s.result = some ⟨2, 3⟩ ∧ ∃ text,
      s.threads.drained = [text] ∧ s.threads.reports = [(3, text)] := by
  let rounds : List Action := collectorRound ["label", "rate", "iteration"] ++
    List.replicate 6 .reporterStep ++ collectorRound ["rate", "label", "iteration"] ++
    [.stop, .collectorStep, .reporterStep]
  have hrun : ∃ s, (bodies true).runMachine.run { threads := {} }
      (.start :: .start :: rounds.map .thread ++ [.join, .join, .finish]) = some s ∧
      s.result = some ⟨2, 3⟩ ∧ ∃ first, s.threads.drained = [first ++ "\n"] :=
    ⟨_, rfl, rfl, _, rfl⟩
  obtain ⟨s, hrun, hresult, first, hdrained⟩ := hrun
  have hinit : (bodies true).runMachine.Reachable { threads := {} } := .init ⟨_, rfl, rfl⟩
  have hreach := hinit.run hrun
  obtain ⟨_, _, _, _, _, hreports, _⟩ := (run_summary hreach).2.2.2 _ hresult
  refine ⟨s, hreach, hresult, _, hdrained, ?_⟩
  rw [hreports, hdrained]
  simp [nonEmpty]

end spdlogger.diagnostics
