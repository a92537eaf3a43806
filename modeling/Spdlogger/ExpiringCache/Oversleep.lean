import Spdlogger.ExpiringCache.Armed

namespace spdlogger.expiring_cache

variable {Key Value Tid : Type} [DecidableEq Key] [DecidableEq Tid] {Q : ExpirationQueue Key}

/-- In every run whose puts all keep the waiting handler's deadline, the handler
never oversleeps an entry. -/
theorem neverOversleeps_of_keepsDeadline {s : State Q Value Tid}
    (hreach : (cacheMachine Q Value Tid).ReachableBy State.KeepsDeadline s) : s.NeverOversleeps :=
  (armed_of_reachableBy hreach).neverOversleeps

/-- A put while the handler sleeps on an earlier entry: it goes on sleeping, and
neither entry expires before it wakes. -/
theorem neverOversleeps_second_put :
    ∃ s : State (PriorityQueue.sorted (@HeapEntry.NotAfter Nat)) Unit Unit,
      (cacheMachine _ Unit Unit).ReachableBy State.KeepsDeadline s ∧
      s.cache.isStopping = false ∧ s.handler = .blocked 1000000 ∧
      s.cache.expirationQueue.val = [⟨⟨1000000, 1⟩, 7⟩, ⟨⟨5000000, 2⟩, 8⟩] ∧
      s.NeverOversleeps := by
  let sleeps (s : State (PriorityQueue.sorted (@HeapEntry.NotAfter Nat)) Unit Unit) : Bool :=
    decide (s.cache.isStopping = false ∧ s.handler = .blocked 1000000 ∧
      s.cache.expirationQueue.val = [⟨⟨1000000, 1⟩, 7⟩, ⟨⟨5000000, 2⟩, 8⟩])
  obtain ⟨s, hreach, hcheck⟩ := transition.Machine.exists_reachableBy_of_runBy
    (M := cacheMachine (PriorityQueue.sorted (@HeapEntry.NotAfter Nat)) Unit Unit)
    State.KeepsDeadline (s := { clock := 0 }) ⟨0, rfl⟩
    [.put 7 () 1, .handlerStep, .handlerStep, .handlerStep, .put 8 () 5]
    sleeps (by decide)
  obtain ⟨hrunning, hblocked, hheap⟩ := of_decide_eq_true hcheck
  exact ⟨s, hreach, hrunning, hblocked, hheap, neverOversleeps_of_keepsDeadline hreach⟩

/-- A woken handler that finds nothing expired blocks again with the deadline it
had, however early the entries are by now. -/
theorem State.oversleeps_of_woken {s : State Q Value Tid} {deadline : Int}
    (hwoken : s.handler = .woken deadline) (hrunning : s.cache.isStopping = false)
    (hfuture : ∀ entry ∈ Q.items s.cache.expirationQueue, s.clock < entry.expiration)
    {entry : HeapEntry Key} (hentry : entry ∈ Q.items s.cache.expirationQueue)
    (hearlier : entry.expiration < deadline) :
    ∃ last, (cacheMachine Q Value Tid).run s [.handlerStep, .handlerStep] = some last ∧
      ¬ last.NeverOversleeps := by
  have hfalse : s.cache.wakePredicate s.clock = false := by
    rw [← Bool.not_eq_true, s.cache.wakePredicate_iff, hrunning]
    rintro (hstop | ⟨other, hother, hdue⟩)
    · cases hstop
    · have := hfuture other hother
      omega
  refine ⟨{ s with handler := .blocked deadline }, ?_, fun hnever => ?_⟩
  · simp [transition.Machine.run, cacheMachine, State.step, State.handlerStep, hwoken, hfalse]
  · exact absurd (hnever hrunning deadline rfl entry hentry) (not_le.mpr hearlier)

/-- The rule is exact: a put that breaks it after a run that kept it leads, by
the handler's own next steps and without any time passing, to a state in which
the handler oversleeps the entry. -/
theorem oversleeps_of_not_keepsDeadline {s next : State Q Value Tid}
    {action : Action Key Value Tid}
    (hreach : (cacheMachine Q Value Tid).ReachableBy State.KeepsDeadline s)
    (hbreaks : ¬ s.KeepsDeadline action) (hstep : s.step action = some next) :
    ∃ schedule last, (∀ a ∈ schedule, a = Action.handlerStep) ∧
      (cacheMachine Q Value Tid).run next schedule = some last ∧ ¬ last.NeverOversleeps := by
  cases action with
  | put key value ttl =>
    have harmed := armed_of_reachableBy hreach
    simp only [State.KeepsDeadline, Classical.not_imp] at hbreaks
    obtain ⟨hrunning, hmatch⟩ := hbreaks
    simp only [State.step, Option.ite_none_right_eq_some, Option.some.injEq] at hstep
    obtain ⟨_, rfl⟩ := hstep
    have hitems := s.cache.items_put hrunning s.clock key value ttl
    have hstill : (s.cache.put s.clock key value ttl).1.isStopping = false :=
      (s.cache.isStopping_put ..).trans hrunning
    have hmem : ⟨⟨expirationAt s.clock ttl, s.cache.currentGeneration + 1⟩, key⟩ ∈
        Q.items (s.cache.put s.clock key value ttl).1.expirationQueue := by
      rw [hitems]
      exact Multiset.mem_cons_self _ _
    -- In either phase the entry undercuts the deadline, and nothing has expired.
    have hphase : ∃ deadline, expirationAt s.clock ttl < deadline ∧
        (∀ entry ∈ Q.items (s.cache.put s.clock key value ttl).1.expirationQueue,
          s.clock < entry.expiration) ∧
        (s.notifyIf (s.cache.put s.clock key value ttl).2 = .blocked deadline ∨
          s.notifyIf (s.cache.put s.clock key value ttl).2 = .woken deadline) := by
      simp only [hitems, Multiset.mem_cons, forall_eq_or_imp]
      cases hphase : s.handler with
      | blocked deadline =>
        simp only [hphase, not_or, not_le] at hmatch
        simp only [State.Armed, hphase] at harmed
        refine ⟨deadline, hmatch.1, ⟨hmatch.2, fun entry hentry => ?_⟩, ?_⟩
        · have := harmed entry hentry
          omega
        · unfold State.notifyIf
          split <;> simp [hphase, HandlerPhase.notified]
      | woken deadline =>
        simp only [hphase, not_or, not_le, not_exists, not_and] at hmatch
        refine ⟨deadline, hmatch.1, ⟨hmatch.2.1, hmatch.2.2⟩, .inr ?_⟩
        unfold State.notifyIf
        split <;> simp [hphase, HandlerPhase.notified]
      | acquiring | computing | testing | timedOut | returned | exited => simp [hphase] at hmatch
    obtain ⟨deadline, hearlier, hfuture, hblocked | hwoken⟩ := hphase
    · refine ⟨[], _, by simp, rfl, fun hnever => ?_⟩
      exact absurd (hnever hstill deadline hblocked _ hmem) (not_le.mpr hearlier)
    · obtain ⟨last, hrun, hover⟩ := State.oversleeps_of_woken (s := { s with
        cache := (s.cache.put s.clock key value ttl).1
        handler := s.notifyIf (s.cache.put s.clock key value ttl).2
        history := s.record (.put key value ttl) }) hwoken hstill hfuture hmem hearlier
      exact ⟨_, last, by simp, hrun, hover⟩
  | get | remove | size | tick | handlerStep | spuriousWake | timeout | stopStep =>
    exact absurd trivial hbreaks

/-- A handler that went to sleep on the empty heap sleeps until
`time_point::max()`: the notification of the first put wakes it, its predicate
is still false, and it blocks again with the same deadline. -/
theorem oversleeps_first_put :
    ¬ ∀ s : State (PriorityQueue.sorted (@HeapEntry.NotAfter Nat)) Unit Unit,
      (cacheMachine _ Unit Unit).Reachable s → s.NeverOversleeps := by
  intro hnever
  let oversleeps (s : State (PriorityQueue.sorted (@HeapEntry.NotAfter Nat)) Unit Unit) : Bool :=
    decide (s.cache.isStopping = false ∧ s.handler = .blocked timePointMax ∧
      s.cache.expirationQueue.val = [⟨⟨1000000, 1⟩, 7⟩])
  obtain ⟨s, hreach, hcheck⟩ := transition.Machine.exists_reachable_of_run
    (M := cacheMachine (PriorityQueue.sorted (@HeapEntry.NotAfter Nat)) Unit Unit)
    (s := { clock := 0 }) ⟨0, rfl⟩
    [.handlerStep, .handlerStep, .handlerStep, .put 7 () 1, .handlerStep, .handlerStep]
    oversleeps (by decide)
  obtain ⟨hrunning, hblocked, hheap⟩ := of_decide_eq_true hcheck
  have hentry : (⟨⟨1000000, 1⟩, 7⟩ : HeapEntry Nat) ∈
      (PriorityQueue.sorted (@HeapEntry.NotAfter Nat)).items s.cache.expirationQueue := by
    change _ ∈ (s.cache.expirationQueue.val : Multiset (HeapEntry Nat))
    simp [hheap]
  exact absurd (hnever s hreach hrunning timePointMax hblocked _ hentry) (by decide)

end spdlogger.expiring_cache
