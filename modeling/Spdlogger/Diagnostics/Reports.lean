import Spdlogger.Diagnostics.Lines

namespace spdlogger.diagnostics

variable {stress : Bool}

/-- What is kept of the lines, chunk by chunk drained and then unread. -/
structure State.Kept (stress : Bool) (chunks : List (List String)) (unread : List String)
    (s : State) : Prop where
  collected : s.Collected stress (chunks.flatten ++ unread)
  buffered : s.Buffered stress chunks unread
  reported : s.Reported (chunks.flatten ++ unread)

/-- Outside the loop over the metrics no line is under construction. -/
theorem State.openLine_eq_empty {s : State}
    (hloop : ∀ order index, s.collector ≠ .appending order index) : s.openLine = "" := by
  unfold State.openLine
  cases hphase : s.collector with
  | appending order index => exact absurd hphase (hloop order index)
  | _ => rfl

/-- A collector that holds no lock has no line under construction. -/
theorem State.openLine_eq_empty_of_not_holds {s : State} (houtside : s.collector.holds = false) :
    s.openLine = "" := by
  refine State.openLine_eq_empty fun order index hphase => ?_
  rw [hphase] at houtside
  cases houtside

/-- Steps of the collector that leave the buffer alone. -/
theorem State.Kept.quiet {chunks : List (List String)} {unread : List String} {s next : State}
    (h : s.Kept stress chunks unread)
    (hcollected : next.Collected stress (chunks.flatten ++ unread))
    (hopen : next.openLine = s.openLine) (hlogBuffer : next.logBuffer = s.logBuffer)
    (hdrained : next.drained = s.drained) (hreporter : next.reporter = s.reporter)
    (hreports : next.reports = s.reports) : next.Kept stress chunks unread := by
  refine ⟨hcollected, ⟨h.buffered.lines, ?_, ?_⟩, ?_, ?_, ?_, ?_⟩
  · rw [hdrained, h.buffered.drained]
  · rw [hopen, hlogBuffer, h.buffered.logBuffer]
  · rw [hreporter]
    exact h.reported.counting
  · rw [hreporter]
    exact h.reported.logging
  · rw [hreports]
    exact h.reported.counts
  · rw [hreports, hreporter, hdrained]
    exact h.reported.texts

/-- The collector moves on between two lines. -/
theorem State.Kept.between {chunks : List (List String)} {unread : List String} {s : State}
    (h : s.Kept stress chunks unread) (hbefore : ∀ order index, s.collector ≠ .appending order index)
    {metricsMutex logBufferMutex : Option Thread} {phase : CollectorPhase}
    (hfetched : phase.fetched = s.collector.fetched)
    (hcurrent : ∀ i, phase.current = some i → s.collector.current = some i)
    (hwritten : phase.written = 0) (hloop : ∀ order index, phase ≠ .appending order index) :
    State.Kept stress chunks unread { s with metricsMutex, logBufferMutex, collector := phase } := by
  refine h.quiet (h.collected.between _ rfl rfl hfetched hcurrent hwritten hloop) ?_ rfl rfl rfl rfl
  rw [State.openLine_eq_empty hbefore, State.openLine_eq_empty hloop]

/-- The collector writes a metric of its iteration. -/
theorem State.Kept.write {chunks : List (List String)} {unread : List String} {s : State}
    (h : s.Kept stress chunks unread) (hbefore : ∀ order index, s.collector ≠ .appending order index)
    {i : Int} (hcurrent : s.collector.current = some i) (hfetched : s.collector.fetched)
    {key : String} {value : MetricValue}
    (hentry : (metricsOf stress i)[s.collector.written]? = some (key, value))
    {phase : CollectorPhase} (hphase : phase.fetched)
    (hwritten : phase.written = s.collector.written + 1)
    (hlater : ∀ later, phase.current = some later → later = i)
    (hloop : ∀ order index, phase ≠ .appending order index) :
    State.Kept stress chunks unread { s with
      metrics := s.metrics.insert key value, collector := phase } := by
  have hcollected := h.collected.write
    { s with metrics := s.metrics.insert key value, collector := phase } hcurrent hfetched hentry
    rfl rfl hphase hwritten hlater hloop
  refine h.quiet hcollected ?_ rfl rfl rfl rfl
  rw [State.openLine_eq_empty hbefore, State.openLine_eq_empty hloop]

/-- The loop over the map appends an entry. -/
theorem State.Kept.append {chunks : List (List String)} {unread : List String} {s : State}
    (h : s.Kept stress chunks unread) {order : List String} {index : Nat}
    (hphase : s.collector = .appending order index) {key : String} {value : MetricValue}
    (hkey : order[index]? = some key) (hvalue : s.metrics.lookup key = some value) :
    State.Kept stress chunks unread { s with
      logBuffer := s.logBuffer ++ formatEntry key value
      collector := .appending order (index + 1) } := by
  obtain ⟨hcollected, hbuffered, hreported⟩ := h
  refine ⟨?_, ⟨hbuffered.lines, hbuffered.drained, ?_⟩, hreported.counting, hreported.logging,
    hreported.counts, hreported.texts⟩
  · refine ⟨?_, by simp [CollectorPhase.current], ?_, hcollected.keys, hcollected.full, ?_⟩
    · have hcounted := hcollected.counted
      rw [hphase] at hcounted
      exact hcounted
    · have hvalues := hcollected.values
      rw [hphase] at hvalues
      exact hvalues
    · intro later next hlater
      cases hlater
      exact hcollected.ordered order index hphase
  · have hopen : s.openLine = textOf (entriesOf s.metrics (order.take index)) := by
      rw [State.openLine, hphase]
    show s.logBuffer ++ formatEntry key value = String.join unread ++
      textOf (entriesOf s.metrics (order.take (index + 1)))
    rw [textOf_take_succ hkey hvalue, hbuffered.logBuffer, hopen, String.append_assoc]

/-- The collector ends its line. -/
theorem State.Kept.end {chunks : List (List String)} {unread : List String} {s : State}
    (h : s.Kept stress chunks unread) {order : List String} {index : Nat}
    (hphase : s.collector = .appending order index) (hend : order[index]? = none) :
    State.Kept stress chunks (unread ++ [textOf (entriesOf s.metrics order) ++ "\n"])
      { s with logBuffer := s.logBuffer ++ "\n", collector := .sleeping } := by
  obtain ⟨hcollected, hbuffered, hreported⟩ := h
  have hlast : order.take index = order := List.take_of_length_le (List.getElem?_eq_none_iff.mp hend)
  have hwritten : s.collector.written = 3 := by rw [hphase]; rfl
  have hline : IsLine stress (counter (chunks.flatten ++ unread).length)
      (textOf (entriesOf s.metrics order) ++ "\n") :=
    isLine_of_values (hcollected.values_of_written hwritten) (hcollected.ordered order index hphase)
  have hmore : chunks.flatten ++ (unread ++ [textOf (entriesOf s.metrics order) ++ "\n"]) =
      (chunks.flatten ++ unread) ++ [textOf (entriesOf s.metrics order) ++ "\n"] :=
    (List.append_assoc ..).symm
  refine ⟨⟨?_, ?_, ?_, hcollected.keys, ?_, ?_⟩, ⟨?_, hbuffered.drained, ?_⟩, ?_,
    hreported.logging, hreported.counts, hreported.texts⟩
  · have hcounted := hcollected.counted
    rw [hphase] at hcounted
    rw [hmore, List.length_append]
    exact hcounted
  · simp [CollectorPhase.current]
  · simp [CollectorPhase.written]
  · exact fun _ => hcollected.keys_of_written hwritten
  · simp
  · intro i line hget
    rw [hmore] at hget
    rcases Nat.lt_trichotomy i (chunks.flatten ++ unread).length with hlt | rfl | hgt
    · rw [List.getElem?_append_left hlt] at hget
      exact hbuffered.lines i line hget
    · rw [List.getElem?_concat_length, Option.some.injEq] at hget
      exact hget ▸ hline
    · have hbeyond : ((chunks.flatten ++ unread) ++
          [textOf (entriesOf s.metrics order) ++ "\n"]).length ≤ i := by
        rw [List.length_append, List.length_singleton]
        exact hgt
      rw [List.getElem?_eq_none hbeyond] at hget
      cases hget
  · have hopen : s.openLine = textOf (entriesOf s.metrics order) := by
      rw [State.openLine, hphase]
      dsimp only
      rw [hlast]
    show s.logBuffer ++ "\n" = String.join (unread ++ [_]) ++ ""
    rw [hbuffered.logBuffer, hopen, String.join_append, String.append_empty, String.append_assoc]
    simp
  · intro drainedBuffer _ _
    simp

/-- A step of the collector keeps the lines: it only appends to the unread ones. -/
theorem State.Kept.collectorStep {chunks : List (List String)} {unread : List String}
    {s next : State} (h : s.Kept stress chunks unread)
    (hstep : s.collectorStep stress = some next) : ∃ later, next.Kept stress chunks later := by
  unfold State.collectorStep at hstep
  cases hphase : s.collector with
  | testing =>
    simp only [hphase, Option.some.injEq] at hstep
    subst hstep
    have hbefore : ∀ order index, s.collector ≠ .appending order index := by simp [hphase]
    refine ⟨unread, h.between hbefore ?_ ?_ ?_ ?_⟩
    · rw [hphase]
      cases s.stop <;> rfl
    · cases s.stop <;> simp [CollectorPhase.current]
    · cases s.stop <;> rfl
    · cases s.stop <;> simp
  | fetching =>
    simp only [hphase, Option.some.injEq] at hstep
    subst hstep
    have hcollected := h.collected
    have hopen := State.openLine_eq_empty (s := s) (by simp [hphase])
    have hcounted := hcollected.counted
    rw [hphase] at hcounted
    refine ⟨unread, h.quiet ⟨?_, ?_, by simp [CollectorPhase.written], hcollected.keys,
      hcollected.full, by simp⟩ hopen.symm rfl rfl rfl rfl⟩
    · show Int.bmod (s.iteration + 1) (2 ^ 64) = _
      rw [hcounted]
      exact counter_succ _
    · intro i hi
      cases hi
      exact hcounted
  | locking i =>
    simp only [hphase, Option.map_eq_some_iff, State.scopedLock_eq_some_iff] at hstep
    obtain ⟨_, ⟨_, rfl⟩, rfl⟩ := hstep
    have hbefore : ∀ order index, s.collector ≠ .appending order index := by simp [hphase]
    refine ⟨unread, h.between hbefore ?_ ?_ rfl (by simp)⟩
    · rw [hphase]
      rfl
    · rw [hphase]
      exact fun _ => id
  | writingIteration i | writingRate i | writingLabel i =>
    simp only [hphase, Option.some.injEq] at hstep
    subst hstep
    have hbefore : ∀ order index, s.collector ≠ .appending order index := by simp [hphase]
    refine ⟨unread, h.write hbefore (i := i) ?_ ?_ ?_ rfl ?_ (by simp [CollectorPhase.current]) (by simp)⟩ <;>
      rw [hphase] <;> rfl
  | appending order index =>
    simp only [hphase] at hstep
    cases hkey : order[index]? with
    | some key =>
      simp only [hkey, Option.map_eq_some_iff] at hstep
      obtain ⟨value, hvalue, rfl⟩ := hstep
      exact ⟨unread, h.append hphase hkey hvalue⟩
    | none =>
      simp only [hkey, Option.some.injEq] at hstep
      subst hstep
      exact ⟨_, h.end hphase hkey⟩
  | sleeping =>
    simp only [hphase, Option.some.injEq] at hstep
    subst hstep
    have hbefore : ∀ order index, s.collector ≠ .appending order index := by simp [hphase]
    refine ⟨unread, h.between hbefore ?_ (by simp [CollectorPhase.current]) rfl (by simp)⟩
    rw [hphase]
    rfl
  | iterating | exited => simp [hphase] at hstep

/-- The loop over the map begins once the three metrics are written. -/
theorem State.Kept.iterate {chunks : List (List String)} {unread : List String} {s : State}
    (h : s.Kept stress chunks unread) (hphase : s.collector = .iterating) {order : List String}
    (horder : order.Perm s.metrics.keys) :
    State.Kept stress chunks unread { s with collector := .appending order 0 } := by
  have hcollected := h.collected
  have hwritten : s.collector.written = 3 := by rw [hphase]; rfl
  have hopen := State.openLine_eq_empty (s := s) (by simp [hphase])
  refine h.quiet ⟨?_, by simp [CollectorPhase.current], ?_, hcollected.keys, hcollected.full, ?_⟩
    ?_ rfl rfl rfl rfl
  · have hcounted := hcollected.counted
    rw [hphase] at hcounted
    exact hcounted
  · exact hcollected.values_of_written hwritten
  · intro other index hnext
    cases hnext
    exact horder.trans (hcollected.keys_perm (hcollected.keys_of_written hwritten))
  · rw [hopen]
    rfl

/-- A reporter that drains the buffer finds whole lines in it. -/
theorem State.Kept.swap {chunks : List (List String)} {unread : List String} {s : State}
    (h : s.Kept stress chunks unread) (hphase : s.reporter = .swapping)
    (houtside : s.collector.holds = false) :
    State.Kept stress (chunks ++ [unread]) [] { s with
      logBuffer := "", reporter := .counting s.logBuffer, drained := s.drained ++ [s.logBuffer] } := by
  obtain ⟨hcollected, hbuffered, hreported⟩ := h
  have hsame : (chunks ++ [unread]).flatten ++ [] = chunks.flatten ++ unread := by simp
  have hopen := State.openLine_eq_empty_of_not_holds houtside
  have htext : s.logBuffer = String.join unread := by
    rw [hbuffered.logBuffer, hopen, String.append_empty]
  refine ⟨?_, ⟨?_, ?_, ?_⟩, ?_, by simp, hreported.counts, ?_⟩
  · rw [hsame]
    exact ⟨hcollected.counted, hcollected.current, hcollected.values, hcollected.keys,
      hcollected.full, hcollected.ordered⟩
  · rw [hsame]
    exact hbuffered.lines
  · show s.drained ++ [s.logBuffer] = _
    rw [hbuffered.drained, htext, List.map_append, List.map_singleton]
  · show "" = String.join [] ++ s.openLine
    rw [hopen]
    rfl
  · intro drainedBuffer hcounting hne
    cases hcounting
    rw [hsame]
    intro hnone
    obtain ⟨_, rfl⟩ := List.append_eq_nil_iff.mp hnone
    exact hne htext
  · have htexts := hreported.texts
    rw [hphase] at htexts
    show s.reports.map Prod.snd ++ nonEmpty [s.logBuffer] = nonEmpty (s.drained ++ [s.logBuffer])
    rw [nonEmpty_append, ← htexts, List.append_assoc]
    rfl

/-- Steps of the reporter that leave the buffer alone. -/
theorem State.Kept.elsewhere {chunks : List (List String)} {unread : List String} {s next : State}
    (h : s.Kept stress chunks unread) (hcollector : next.collector = s.collector)
    (hiteration : next.iteration = s.iteration) (hmetrics : next.metrics = s.metrics)
    (hlogBuffer : next.logBuffer = s.logBuffer) (hdrained : next.drained = s.drained)
    (hreported : next.Reported (chunks.flatten ++ unread)) : next.Kept stress chunks unread := by
  obtain ⟨hcollected, hbuffered, _⟩ := h
  refine ⟨⟨?_, ?_, ?_, ?_, ?_, ?_⟩, ⟨hbuffered.lines, ?_, ?_⟩, hreported⟩
  · rw [hcollector, hiteration]
    exact hcollected.counted
  · rw [hcollector]
    exact hcollected.current
  · rw [hcollector, hmetrics]
    exact hcollected.values
  · rw [hmetrics]
    exact hcollected.keys
  · rw [hmetrics]
    exact hcollected.full
  · rw [hcollector]
    exact hcollected.ordered
  · rw [hdrained, hbuffered.drained]
  · have hopen : next.openLine = s.openLine := by
      unfold State.openLine
      rw [hcollector, hmetrics]
    rw [hopen, hlogBuffer, hbuffered.logBuffer]

/-- A step of the reporter keeps the lines: a drain moves the unread ones to a chunk of their
own. -/
theorem State.Kept.reporterStep {chunks : List (List String)} {unread : List String}
    {s next : State} (h : s.Kept stress chunks unread) (hlocked : s.Locked)
    (hstep : s.reporterStep = some next) : ∃ read later, next.Kept stress read later := by
  have hreported := h.reported
  have htexts := hreported.texts
  unfold State.reporterStep at hstep
  cases hphase : s.reporter with
  | testing =>
    simp only [hphase, Option.some.injEq] at hstep
    subst hstep
    rw [hphase] at htexts
    refine ⟨chunks, unread, h.elsewhere rfl rfl rfl rfl rfl ⟨?_, ?_, hreported.counts, ?_⟩⟩
    · cases s.stop <;> simp
    · cases s.stop <;> simp
    · cases s.stop <;> exact htexts
  | locking =>
    simp only [hphase, Option.map_eq_some_iff, State.scopedLock_eq_some_iff] at hstep
    obtain ⟨_, ⟨_, rfl⟩, rfl⟩ := hstep
    rw [hphase] at htexts
    exact ⟨chunks, unread, h.elsewhere rfl rfl rfl rfl rfl
      ⟨by simp, by simp, hreported.counts, htexts⟩⟩
  | swapping =>
    simp only [hphase, Option.some.injEq] at hstep
    subst hstep
    have hinside : s.inside .reporter = true := congrArg ReporterPhase.holds hphase
    have houtside : s.inside .collector = false := hlocked.outside hinside (by simp)
    exact ⟨_, _, h.swap hphase houtside⟩
  | counting drainedBuffer =>
    simp only [hphase, Option.some.injEq] at hstep
    subst hstep
    rw [hphase] at htexts
    refine ⟨chunks, unread, h.elsewhere rfl rfl rfl rfl rfl
      ⟨by simp, ?_, hreported.counts, htexts⟩⟩
    intro logged metricCount hlogging hne
    cases hlogging
    have hall := h.collected.full (hreported.counting drainedBuffer hphase hne)
    have hthree : s.metrics.keys.length = 3 := (h.collected.keys_perm hall).length_eq
    rw [hthree]
    rfl
  | logging drainedBuffer metricCount =>
    simp only [hphase, Option.some.injEq] at hstep
    subst hstep
    rw [hphase] at htexts
    have hcount := hreported.logging drainedBuffer metricCount hphase
    by_cases hempty : drainedBuffer = ""
    · refine ⟨chunks, unread, h.elsewhere rfl rfl rfl rfl rfl ⟨by simp, by simp, ?_, ?_⟩⟩
      · simpa [hempty] using hreported.counts
      · simpa [hempty, ReporterPhase.inHand, nonEmpty] using htexts
    · refine ⟨chunks, unread, h.elsewhere rfl rfl rfl rfl rfl ⟨by simp, by simp, ?_, ?_⟩⟩
      · intro report hreport
        rw [if_neg hempty, List.mem_append, List.mem_singleton] at hreport
        obtain hearlier | rfl := hreport
        · exact hreported.counts report hearlier
        · exact hcount hempty
      · simpa [hempty, ReporterPhase.inHand, nonEmpty] using htexts
  | sleeping =>
    simp only [hphase, Option.some.injEq] at hstep
    subst hstep
    rw [hphase] at htexts
    exact ⟨chunks, unread, h.elsewhere rfl rfl rfl rfl rfl
      ⟨by simp, by simp, hreported.counts, htexts⟩⟩
  | exited => simp [hphase] at hstep

/-- In every reachable state the lines are split into the chunks drained and the unread rest. -/
theorem State.kept_of_reachable {s : State} (hreach : (diagnosticsMachine stress).Reachable s) :
    ∃ chunks unread, s.Kept stress chunks unread := by
  refine transition.Machine.ReachableBy.invariant
    (I := fun s => ∃ chunks unread, s.Kept stress chunks unread) ?_ ?_ hreach
  · rintro s rfl
    refine ⟨[], [], ⟨rfl, by simp [CollectorPhase.current], by simp [CollectorPhase.written], ?_, ?_,
      by simp⟩, ⟨by simp, rfl, rfl⟩, by simp, by simp, by simp, rfl⟩
    · exact fun key hkey => absurd hkey (AList.notMem_empty key)
    · exact fun hlines => absurd rfl hlines
  · rintro s action next hs ⟨chunks, unread, h⟩ _ hstep
    cases action with
    | stop =>
      cases hstep
      exact ⟨chunks, unread, h.elsewhere rfl rfl rfl rfl rfl
        ⟨h.reported.counting, h.reported.logging, h.reported.counts, h.reported.texts⟩⟩
    | collectorStep =>
      obtain ⟨later, hlater⟩ := h.collectorStep hstep
      exact ⟨chunks, later, hlater⟩
    | iterate order =>
      simp only [diagnosticsMachine, State.step, Option.ite_none_right_eq_some,
        Option.some.injEq] at hstep
      obtain ⟨⟨hphase, horder⟩, rfl⟩ := hstep
      exact ⟨chunks, unread, h.iterate hphase horder⟩
    | reporterStep => exact h.reporterStep (State.locked_of_reachable hs.reachable) hstep

/-- Joining the joined chunks is joining the lines of all chunks. -/
theorem join_map_join (chunks : List (List String)) :
    String.join (chunks.map String.join) = String.join chunks.flatten := by
  induction chunks with
  | nil => rfl
  | cons chunk rest ih =>
    rw [List.map_cons, String.join_cons, ih, List.flatten_cons, String.join_append]

/-- No line is torn, lost or doubled. In every reachable state: the texts the
reporter has drained are made of whole lines; these and the lines in the buffer are
those of the iterations from zero on, one for each; what stands in the buffer after
them is the line the collector is just writing, so nothing unless it has the locks;
each report that is logged says three metrics and shows a drained text; and the
reports, with the one the reporter has in hand, are of the drained texts that are
not empty, each once and in their order. -/
theorem State.lines_kept {s : State} (hreach : (diagnosticsMachine stress).Reachable s) :
    ∃ (chunks : List (List String)) (unread : List String),
      (∀ i line, (chunks.flatten ++ unread)[i]? = some line → IsLine stress (counter i) line) ∧
      s.drained = chunks.map String.join ∧
      String.join s.drained ++ s.logBuffer = String.join (chunks.flatten ++ unread) ++ s.openLine ∧
      (s.metricsMutex ≠ some .collector → s.openLine = "") ∧
      (s.collector.fetched = false → s.iteration = counter (chunks.flatten ++ unread).length) ∧
      (∀ report ∈ s.reports, report.1 = 3 ∧ report.2 ∈ s.drained) ∧
      s.reports.map Prod.snd ++ nonEmpty s.reporter.inHand = nonEmpty s.drained := by
  obtain ⟨chunks, unread, hcollected, hbuffered, hreported⟩ := State.kept_of_reachable hreach
  have hheld := (State.locked_of_reachable hreach).heldBy
  refine ⟨chunks, unread, hbuffered.lines, hbuffered.drained, ?_, ?_, ?_, ?_, hreported.texts⟩
  · rw [hbuffered.drained, hbuffered.logBuffer, join_map_join, String.join_append,
      String.append_assoc]
  · intro hfree
    apply State.openLine_eq_empty_of_not_holds
    by_contra hholds
    have hinside : s.collector.holds = true := by simpa using hholds
    exact hfree ((hheld .collector).mp hinside)
  · intro hfetched
    have hcounted := hcollected.counted
    rw [hfetched] at hcounted
    exact hcounted
  · intro report hreport
    refine ⟨hreported.counts report hreport, ?_⟩
    have hmem : report.2 ∈ nonEmpty s.drained := by
      rw [← hreported.texts]
      exact List.mem_append_left _ (List.mem_map_of_mem hreport)
    exact List.mem_of_mem_filter hmem

/-- A round of the collector, with the order in which its loop meets the keys. -/
def collectorRound (order : List String) : List Action :=
  List.replicate 6 .collectorStep ++ .iterate order :: List.replicate 5 .collectorStep

/-- Three lines over two reports. -/
theorem lines_kept_two_reports :
    ∃ s, (diagnosticsMachine true).Reachable s ∧ s.drained.length = 2 ∧
      s.reports.map Prod.snd = s.drained ∧ ∃ lines : List String,
        (∀ i line, lines[i]? = some line → IsLine true (counter i) line) ∧
        counter lines.length = 3 ∧ String.join s.drained ++ s.logBuffer = String.join lines := by
  have hrun : ∃ s, (diagnosticsMachine true).run {} (collectorRound ["label", "rate", "iteration"] ++
      collectorRound ["iteration", "rate", "label"] ++ List.replicate 6 .reporterStep ++
      collectorRound ["rate", "iteration", "label"] ++ List.replicate 5 .reporterStep) = some s ∧
      s.collector = .testing ∧ s.reporter = .sleeping ∧ s.metricsMutex = none ∧ s.iteration = 3 ∧
      ∃ first second, s.drained = [first ++ "\n", second ++ "\n"] :=
    ⟨_, rfl, rfl, rfl, rfl, rfl, _, _, rfl⟩
  obtain ⟨s, hrun, hcollector, hreporter, hfree, hiteration, first, second, hdrained⟩ := hrun
  have hinit : (diagnosticsMachine true).Reachable {} := .init rfl
  have hreach := hinit.run hrun
  obtain ⟨chunks, unread, hlines, _, htext, hopen, hcounted, _, hreports⟩ :=
    State.lines_kept hreach
  refine ⟨s, hreach, by rw [hdrained]; rfl, ?_, chunks.flatten ++ unread, hlines, ?_, ?_⟩
  · rw [hreporter, hdrained] at hreports
    simpa [ReporterPhase.inHand, nonEmpty, hdrained] using hreports
  · rw [← hcounted (by rw [hcollector]; rfl), hiteration]
  · rw [htext, hopen (by simp [hfree]), String.append_empty]

end spdlogger.diagnostics
