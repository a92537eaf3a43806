import Spdlogger.ThreadPool.Thrown

namespace spdlogger.thread_pool

variable {maxThreads : Nat} {Tid Fn Exception : Type}

/-- A `wait` ends with the exception that the round before it starts with. -/
def EndsRound (earlier : List (LogEntry Exception)) (entry : LogEntry Exception) : Prop :=
  ∀ result, entry = .waited result → result = (recorded (sinceRethrow earlier)).head?

/-- A `wait` ends only after every task that has thrown is retired. -/
def AwaitsThrowers (earlier : List (LogEntry Exception)) (entry : LogEntry Exception) : Prop :=
  ∀ result, entry = .waited result →
    ∀ id exception, .caught id exception ∈ earlier → .finished id ∈ earlier

/-- No exception is recorded for a task that is retired already. -/
def CaughtUnfinished (earlier : List (LogEntry Exception)) (entry : LogEntry Exception) : Prop :=
  ∀ id exception, entry = .caught id exception → .finished id ∉ earlier

/-- The pool holds the first exception of the current round, each `wait` took the
first of its own round, and no exception was taken twice. -/
structure State.Reported (s : State maxThreads Tid Fn Exception) : Prop where
  first : s.firstException = (recorded (sinceRethrow s.log)).head?
  rounds : history.Justified EndsRound s.log
  once : (rethrown s.log ++ s.firstException.toList).Sublist (recorded s.log)

/-- A task that has thrown is retired, or its worker is about to retire it, no
`wait` passes in between, and it does not throw again. -/
structure State.Retired (s : State maxThreads Tid Fn Exception) : Prop where
  finished : s.finished = s.log.filterMap LogEntry.finishedId
  holding : ∀ id exception, .caught id exception ∈ s.log →
    id ∈ s.finished ∨ ∃ worker task, s.workers worker = .retiring task ∧ task.id = id
  barrier : history.Justified AwaitsThrowers s.log
  unfinished : history.Justified CaughtUnfinished s.log

/-- The tasks that are through are those the log says so of. -/
theorem mem_finished_iff {log : List (LogEntry Exception)} {id : Int} :
    id ∈ log.filterMap LogEntry.finishedId ↔ .finished id ∈ log := by
  rw [List.mem_filterMap]
  constructor
  · rintro ⟨entry, hentry, hid⟩
    cases entry with
    | finished other =>
      cases hid
      exact hentry
    | caught | waited => cases hid
  · exact fun hmem => ⟨_, hmem, rfl⟩

/-- An exception is stored when it is the first of its round. -/
theorem State.Reported.caught {s next : State maxThreads Tid Fn Exception} (h : s.Reported)
    {id : Int} {exception : Exception} (hlog : next.log = s.log ++ [.caught id exception])
    (hfirst : next.firstException = s.firstException.or (some exception)) : next.Reported := by
  have hround : sinceRethrow next.log = sinceRethrow s.log ++ [.caught id exception] := by
    rw [hlog]
    exact history.since_concat _ rfl
  have hrecorded : recorded next.log = recorded s.log ++ [exception] := by
    rw [hlog, recorded_append]
    rfl
  have hrethrown : rethrown next.log = rethrown s.log := by
    rw [hlog, rethrown_append]
    exact List.append_nil _
  refine ⟨?_, ?_, ?_⟩
  · rw [hfirst, hround, recorded_append, List.head?_append, h.first]
    rfl
  · rw [hlog]
    exact h.rounds.concat fun result hentry => by cases hentry
  · rw [hrethrown, hrecorded, hfirst]
    cases hheld : s.firstException with
    | none =>
      have honce := h.once
      rw [hheld, Option.toList_none, List.append_nil] at honce
      exact honce.append_right [exception]
    | some first =>
      have honce := h.once
      rw [hheld] at honce
      exact honce.trans (List.sublist_append_left _ _)

/-- The end of a task changes nothing about the exceptions. -/
theorem State.Reported.retired {s next : State maxThreads Tid Fn Exception} (h : s.Reported)
    {id : Int} (hlog : next.log = s.log ++ [.finished id])
    (hfirst : next.firstException = s.firstException) : next.Reported := by
  have hround : sinceRethrow next.log = sinceRethrow s.log ++ [.finished id] := by
    rw [hlog]
    exact history.since_concat _ rfl
  have hrecorded (log : List (LogEntry Exception)) :
      recorded (log ++ [.finished id]) = recorded log := by
    rw [recorded_append]
    exact List.append_nil _
  refine ⟨?_, ?_, ?_⟩
  · rw [hfirst, hround, hrecorded, h.first]
  · rw [hlog]
    exact h.rounds.concat fun result hentry => by cases hentry
  · rw [hlog, hrecorded, rethrown_append, hfirst]
    exact (List.append_nil (rethrown s.log)).symm ▸ h.once

/-- A `wait` that takes an exception along ends the round. -/
theorem State.Reported.waited {s next : State maxThreads Tid Fn Exception} (h : s.Reported)
    (hlog : next.log = s.log ++ [.waited s.firstException])
    (hfirst : next.firstException = none) : next.Reported := by
  have hrecorded (log : List (LogEntry Exception)) :
      recorded (log ++ [.waited s.firstException]) = recorded log := by
    rw [recorded_append]
    exact List.append_nil _
  refine ⟨?_, ?_, ?_⟩
  · rw [hfirst, hlog]
    cases hheld : s.firstException with
    | none =>
      have hround : sinceRethrow (s.log ++ [.waited none]) = sinceRethrow s.log ++ [.waited none] :=
        history.since_concat _ rfl
      rw [hheld] at hrecorded
      rw [hround, hrecorded, ← h.first, hheld]
    | some first =>
      have hround : sinceRethrow (s.log ++ [.waited (some first)]) = [] :=
        history.since_concat_marker _ rfl
      rw [hround]
      rfl
  · rw [hlog]
    apply h.rounds.concat
    rintro result hentry
    cases hentry
    exact h.first
  · rw [hfirst, hlog, hrecorded, rethrown_append, Option.toList_none, List.append_nil]
    have htaken : rethrown [.waited s.firstException] = s.firstException.toList := by
      cases s.firstException <;> rfl
    rw [htaken]
    exact h.once

variable [DecidableEq Tid]

/-- In every reachable state the pool holds the first exception of the round. -/
theorem State.reported_of_reachable {s : State maxThreads Tid Fn Exception}
    (hreach : (poolMachine maxThreads Tid Fn Exception).Reachable s) : s.Reported := by
  refine transition.Machine.Reachable.invariant ?_ ?_ hreach
  · rintro s rfl
    exact ⟨rfl, history.justified_nil, List.Sublist.refl _⟩
  · intro s action next hreported hstep
    cases ExceptionMove.of_step hstep with
    | quiet hlog hfirst =>
      refine ⟨?_, ?_, ?_⟩
      · rw [hfirst, hlog]
        exact hreported.first
      · rw [hlog]
        exact hreported.rounds
      · rw [hfirst, hlog]
        exact hreported.once
    | caught _ _ _ _ _ hlog hfirst => exact hreported.caught hlog hfirst
    | retired _ _ _ _ hlog hfirst => exact hreported.retired hlog hfirst
    | waited _ hlog hfirst => exact hreported.waited hlog hfirst

omit [DecidableEq Tid] in
/-- While a task is being retired it is in progress, so no `wait` passes. -/
theorem State.Settled.not_retiring_of_allDone {s : State maxThreads Tid Fn Exception}
    (h : s.Settled) (hdone : s.allDone) (worker : Fin maxThreads) (task : QueuedTask Fn) :
    s.workers worker ≠ .retiring task := by
  intro hphase
  simp only [State.allDone, Bool.and_eq_true, decide_eq_true_eq] at hdone
  have hheld : task.id ∈ (s.workers worker).held := by
    rw [hphase, held_retiring]
    exact Multiset.mem_singleton_self _
  have hmem : task.id ∈ s.inProgressTasks.val := by
    rw [h.inProgress_eq]
    exact Multiset.mem_sum.mpr ⟨worker, Finset.mem_univ _, hheld⟩
  rw [hdone.2] at hmem
  simp at hmem

omit [DecidableEq Tid] in
/-- The handler puts an exception into the log before its task is retired. -/
theorem State.Retired.caught {s next : State maxThreads Tid Fn Exception} (h : s.Retired)
    {worker : Fin maxThreads} {task : QueuedTask Fn} {exception : Exception}
    (hphase : s.workers worker = .caught task exception) (hunfinished : task.id ∉ s.finished)
    (hworkers : next.workers = Function.update s.workers worker (.retiring task))
    (hlog : next.log = s.log ++ [.caught task.id exception])
    (hfinished : next.finished = s.finished) : next.Retired := by
  refine ⟨?_, ?_, ?_, ?_⟩
  · rw [hfinished, hlog, h.finished, List.filterMap_append]
    exact (List.append_nil _).symm
  · intro id thrown hcaught
    rw [hlog, List.mem_append, List.mem_singleton] at hcaught
    rw [hfinished, hworkers]
    rcases hcaught with hearlier | hnow
    · obtain hdone | ⟨other, held, hother, hid⟩ := h.holding id thrown hearlier
      · exact .inl hdone
      · exact .inr ⟨other, held, threads.update_of_phase_ne hother (by simp [hphase]), hid⟩
    · cases hnow
      exact .inr ⟨worker, task, Function.update_self .., rfl⟩
  · rw [hlog]
    exact h.barrier.concat fun result hentry => by cases hentry
  · rw [hlog]
    apply h.unfinished.concat
    rintro id thrown hentry hretired
    cases hentry
    rw [h.finished] at hunfinished
    exact hunfinished (mem_finished_iff.mpr hretired)

omit [DecidableEq Tid] in
/-- The end of a task retires its exception too. -/
theorem State.Retired.retired {s next : State maxThreads Tid Fn Exception} (h : s.Retired)
    {worker : Fin maxThreads} {task : QueuedTask Fn} (hphase : s.workers worker = .retiring task)
    (hworkers : next.workers = Function.update s.workers worker .acquiring)
    (hlog : next.log = s.log ++ [.finished task.id])
    (hfinished : next.finished = s.finished ++ [task.id]) : next.Retired := by
  refine ⟨?_, ?_, ?_, ?_⟩
  · rw [hfinished, hlog, h.finished, List.filterMap_append]
    rfl
  · intro id thrown hcaught
    rw [hlog, List.mem_append, List.mem_singleton] at hcaught
    rw [hfinished, hworkers, List.mem_append, List.mem_singleton]
    have hearlier := hcaught.resolve_right (by simp)
    obtain hdone | ⟨other, held, hother, hid⟩ := h.holding id thrown hearlier
    · exact .inl (.inl hdone)
    · by_cases hsame : other = worker
      · rw [hsame, hphase] at hother
        cases hother
        exact .inl (.inr hid.symm)
      · exact .inr ⟨other, held, by rw [Function.update_of_ne hsame, hother], hid⟩
  · rw [hlog]
    exact h.barrier.concat fun result hentry => by cases hentry
  · rw [hlog]
    exact h.unfinished.concat fun id thrown hentry => by cases hentry

omit [DecidableEq Tid] in
/-- A `wait` comes back after all that have thrown are retired. -/
theorem State.Retired.waited {s next : State maxThreads Tid Fn Exception} (h : s.Retired)
    (hsettled : s.Settled) (hdone : s.allDone)
    (hlog : next.log = s.log ++ [.waited s.firstException])
    (hfinished : next.finished = s.finished) : next.Retired := by
  have hall : ∀ id exception, .caught id exception ∈ s.log → id ∈ s.finished := by
    intro id exception hcaught
    obtain hfinished | ⟨worker, task, hphase, _⟩ := h.holding id exception hcaught
    · exact hfinished
    · exact absurd hphase (hsettled.not_retiring_of_allDone hdone worker task)
  refine ⟨?_, ?_, ?_, ?_⟩
  · rw [hfinished, hlog, h.finished, List.filterMap_append]
    exact (List.append_nil _).symm
  · intro id thrown hcaught
    rw [hlog, List.mem_append, List.mem_singleton] at hcaught
    rw [hfinished]
    exact .inl (hall id thrown (hcaught.resolve_right (by simp)))
  · rw [hlog]
    apply h.barrier.concat
    intro result _ id exception hcaught
    have hmem := hall id exception hcaught
    rw [h.finished] at hmem
    exact mem_finished_iff.mp hmem
  · rw [hlog]
    exact h.unfinished.concat fun id thrown hentry => by cases hentry

/-- As long as ids are distinct, every task that has thrown is retired before a `wait` passes. -/
theorem State.retired_of_reachable {s : State maxThreads Tid Fn Exception}
    (hreach : (poolMachine maxThreads Tid Fn Exception).Reachable s) :
    s.DistinctIds → s.Retired := by
  refine transition.Machine.ReachableBy.invariant (I := fun s => s.DistinctIds → s.Retired)
    ?_ ?_ hreach
  · rintro s rfl _
    exact ⟨rfl, fun id exception hcaught => by simp at hcaught, history.justified_nil,
      history.justified_nil⟩
  · intro s action next hs hretired _ hstep hdistinct
    have hearlier := hdistinct.of_step hstep
    have hold := hretired hearlier
    cases ExceptionMove.of_step hstep with
    | quiet hlog _ hfinished _ hretiring =>
      refine ⟨?_, ?_, ?_, ?_⟩
      · rw [hfinished, hlog, hold.finished]
      · intro id exception hcaught
        rw [hlog] at hcaught
        rw [hfinished]
        refine (hold.holding id exception hcaught).imp_right ?_
        exact fun ⟨worker, task, hphase, hid⟩ => ⟨worker, task, hretiring _ _ hphase, hid⟩
      · rw [hlog]
        exact hold.barrier
      · rw [hlog]
        exact hold.unfinished
    | caught worker task _ hphase hworkers hlog _ hfinished =>
      have haccounts := State.accounts_of_reachable hs.reachable
      have hheld : task.id ∈ (s.workers worker).held := by
        rw [hphase, held_caught]
        exact Multiset.mem_singleton_self _
      have hunfinished := (haccounts.settled hearlier).not_finished haccounts.numbered hearlier hheld
      exact hold.caught hphase hunfinished hworkers hlog hfinished
    | retired _ _ hphase hworkers hlog _ hfinished =>
      exact hold.retired hphase hworkers hlog hfinished
    | waited hdone hlog _ hfinished =>
      have hsettled := (State.accounts_of_reachable hs.reachable).settled hearlier
      exact hold.waited hsettled hdone hlog hfinished

omit [DecidableEq Tid] in
/-- A thrower that a quiet `wait` finds finished belongs to an earlier round, and
would have had to finish twice. -/
theorem State.Retired.quiet_wait {s : State maxThreads Tid Fn Exception} (h : s.Retired)
    (hreported : s.Reported) (honce : s.finished.Nodup) {earlier later : List (LogEntry Exception)}
    (hlog : s.log = earlier ++ .waited none :: later) {id : Int} {exception : Exception}
    (hfinished : .finished id ∈ sinceRethrow earlier) : .caught id exception ∉ earlier := by
  intro hcaught
  have hnone : recorded (sinceRethrow earlier) = [] := by
    have hround := hreported.rounds earlier (.waited none) later hlog none rfl
    exact List.head?_eq_none_iff.mp hround.symm
  have hround : .caught id exception ∉ sinceRethrow earlier := by
    intro hmem
    have hrecorded : exception ∈ recorded (sinceRethrow earlier) :=
      List.mem_filterMap.mpr ⟨_, hmem, rfl⟩
    rw [hnone] at hrecorded
    cases hrecorded
  obtain hall | ⟨before, mark, hmark, hsplit⟩ :=
    history.exists_append_since LogEntry.isRethrow earlier
  · rw [hall] at hcaught
    exact hround hcaught
  · have hbefore : .caught id exception ∈ before := by
      rw [hsplit, List.mem_append, List.mem_cons] at hcaught
      obtain hmem | rfl | hmem := hcaught
      · exact hmem
      · cases hmark
      · exact absurd hmem hround
    have hrethrow : ∃ thrown, mark = .waited thrown := by
      cases mark with
      | waited thrown => exact ⟨thrown, rfl⟩
      | caught | finished => cases hmark
    obtain ⟨thrown, rfl⟩ := hrethrow
    have hretired : .finished id ∈ before := by
      have hwhole : s.log =
          before ++ .waited thrown :: (sinceRethrow earlier ++ .waited none :: later) := by
        rw [hlog, ← List.cons_append, ← List.append_assoc]
        exact congrArg (· ++ _) hsplit
      exact h.barrier before (.waited thrown) _ hwhole thrown rfl id exception hbefore
    rw [h.finished, hlog, List.filterMap_append, hsplit, List.filterMap_append] at honce
    have hapart := (List.nodup_append.mp (List.nodup_append.mp honce).1).2.2
    refine hapart id (mem_finished_iff.mpr hretired) id ?_ rfl
    exact mem_finished_iff.mpr (List.mem_cons_of_mem _ hfinished)

omit [DecidableEq Tid] in
/-- What a finished task has thrown was caught before it was finished. -/
theorem State.Retired.caught_of_thrown {s : State maxThreads Tid Fn Exception} (h : s.Retired)
    (hcaught : s.Caught) (hheld : ∀ worker, ∀ id ∈ (s.workers worker).held, id ∉ s.finished)
    {earlier later : List (LogEntry Exception)} (hlog : s.log = earlier ++ later) {id : Int}
    {exception : Exception} (hfinished : .finished id ∈ earlier)
    (hthrown : (id, exception) ∈ s.thrown) : .caught id exception ∈ earlier := by
  obtain hmem | ⟨worker, hworker⟩ := hcaught.cases hthrown
  · rw [hlog, List.mem_append] at hmem
    refine hmem.resolve_right fun hlater => ?_
    obtain ⟨before, after, rfl⟩ := List.append_of_mem hlater
    rw [← List.append_assoc] at hlog
    exact h.unfinished _ _ after hlog id exception rfl (List.mem_append_left before hfinished)
  · refine absurd ?_ (hheld worker id hworker)
    rw [h.finished, hlog, List.filterMap_append]
    exact List.mem_append_left _ (mem_finished_iff.mpr hfinished)

/-- Exceptions come out of `wait` exactly once, each in its own round. In every
reachable state: each `wait` ended with the first exception recorded since the
last rethrow, and normally if there was none; the rethrown exceptions are some of
the recorded ones, in their order; every exception thrown out of a task's function
is recorded, once, unless its worker has still to get to that, and no other is;
and with fewer than 2 ^ 31 submissions a `wait` that ended normally found no task
finished since the last rethrow whose function threw. -/
theorem State.exceptions_reported_once {s : State maxThreads Tid Fn Exception}
    (hreach : (poolMachine maxThreads Tid Fn Exception).Reachable s) :
    (∀ earlier result later, s.log = earlier ++ .waited result :: later →
      result = (recorded (sinceRethrow earlier)).head?) ∧
    (rethrown s.log).Sublist (recorded s.log) ∧
    (s.thrown : Multiset (Int × Exception)) =
      recordedFrom s.log + ∑ worker, (s.workers worker).unrecorded ∧
    (s.submitted.length < 2 ^ 31 →
      ∀ earlier later, s.log = earlier ++ .waited none :: later →
        ∀ id exception, .finished id ∈ sinceRethrow earlier →
          .caught id exception ∉ earlier ∧ (id, exception) ∉ s.thrown) := by
  have hreported := State.reported_of_reachable hreach
  have hcaught := State.caught_of_reachable hreach
  refine ⟨?_, ?_, hcaught, ?_⟩
  · intro earlier result later hlog
    exact hreported.rounds earlier (.waited result) later hlog result rfl
  · exact (List.sublist_append_left _ _).trans hreported.once
  · intro hcount earlier later hlog id exception hfinished
    have haccounts := State.accounts_of_reachable hreach
    have hdistinct := haccounts.numbered.distinctIds hcount
    have hsettled := haccounts.settled hdistinct
    have hretired := State.retired_of_reachable hreach hdistinct
    have honce : s.finished.Nodup := by
      refine Multiset.coe_nodup.mp (Multiset.nodup_of_le ?_ hdistinct)
      rw [hsettled.ids_submitted haccounts.numbered, add_right_comm]
      exact Multiset.le_add_left _ _
    have hquiet : .caught id exception ∉ earlier :=
      hretired.quiet_wait hreported honce hlog hfinished
    refine ⟨hquiet, fun hthrown => hquiet ?_⟩
    refine hretired.caught_of_thrown hcaught (fun worker id hheld => ?_) hlog ?_ hthrown
    · exact hsettled.not_finished haccounts.numbered hdistinct hheld
    · exact history.mem_of_mem_since hfinished

/-- Two workers throw before one `wait`: the first exception caught comes out, and
the next `wait` ends normally after another task that returned. -/
theorem exceptions_reported_once_two_throwers :
    ∃ s : State 2 Unit Unit Nat, (poolMachine 2 Unit Unit Nat).Reachable s ∧
      s.thrown = [(0, 5), (1, 7)] ∧
      s.log = [.caught 1 7, .finished 1, .caught 0 5, .finished 0, .waited (some 7), .finished 2,
        .waited none] ∧
      (rethrown s.log).Sublist (recorded s.log) ∧ ∀ exception, (2, exception) ∉ s.thrown := by
  obtain ⟨s, hreach, hcheck⟩ := transition.Machine.exists_reachable_of_run
    (M := poolMachine 2 Unit Unit Nat) (s := {}) rfl
    [.submit (.caller ()) (), .notify (.caller ()) none, .submit (.caller ()) (),
      .notify (.caller ()) none, .workerStep 0, .workerStep 1, .workerStep 0, .workerStep 1,
      .throws 0 5, .throws 1 7, .workerStep 1, .workerStep 1, .workerStep 0, .workerStep 0,
      .wait (.caller ()), .testDone (.caller ()), .submit (.caller ()) (),
      .notify (.caller ()) none, .workerStep 0, .workerStep 0, .returns 0, .workerStep 0,
      .wait (.caller ()), .testDone (.caller ())]
    (fun s => s.submitted.length = 3 ∧ s.thrown = [(0, 5), (1, 7)] ∧
      s.log = [.caught 1 7, .finished 1, .caught 0 5, .finished 0, .waited (some 7), .finished 2,
        .waited none]) (by decide)
  obtain ⟨hsubmitted, hthrown, hlog⟩ := of_decide_eq_true hcheck
  obtain ⟨_, hsublist, _, hnormal⟩ := State.exceptions_reported_once hreach
  refine ⟨s, hreach, hthrown, hlog, hsublist, fun exception => ?_⟩
  have hcount : s.submitted.length < 2 ^ 31 := by
    rw [hsubmitted]
    decide
  exact (hnormal hcount [.caught 1 7, .finished 1, .caught 0 5, .finished 0, .waited (some 7),
    .finished 2] [] hlog 2 exception (by decide)).2

end spdlogger.thread_pool
