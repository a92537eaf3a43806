import Spdlogger.ExpiringCache.Moves

namespace spdlogger.expiring_cache

variable {Key Value Tid : Type} [DecidableEq Key] [DecidableEq Tid] {Q : ExpirationQueue Key}

/-- The history of a state accounts for its cache, with readings in order and
none after the current one. -/
structure State.Recorded (s : State Q Value Tid) : Prop where
  cache_eq : s.cache = TExpiringCache.afterAll Q s.history
  ordered : s.history.Pairwise fun earlier later => earlier.reading ≤ later.reading
  past : ∀ event ∈ s.history, event.reading ≤ s.clock

omit [DecidableEq Tid] in
/-- A critical section is recorded with the reading it is executed at. -/
theorem State.Recorded.append {s : State Q Value Tid} (h : s.Recorded) {call : Call Key Value}
    {cache : TExpiringCache Q Value} {handler : HandlerPhase} {stoppers : Tid → StopPhase}
    (hcache : cache = s.cache.after ⟨s.clock, call⟩) :
    State.Recorded { s with cache, handler, stoppers, history := s.record call } := by
  refine ⟨?_, ?_, ?_⟩
  · show cache = _
    rw [hcache, State.record, TExpiringCache.afterAll_append, ← h.cache_eq]
  · rw [State.record, List.pairwise_append]
    refine ⟨h.ordered, List.pairwise_singleton _ _, ?_⟩
    intro event hevent last hlast
    rw [List.mem_singleton.mp hlast]
    exact h.past event hevent
  · rw [State.record]
    intro event hevent
    rcases List.mem_append.mp hevent with hold | hlast
    · exact h.past event hold
    · rw [List.mem_singleton.mp hlast]

/-- Every step is one of the recorded critical sections or leaves the cache as it is. -/
theorem State.Recorded.step {s next : State Q Value Tid} (h : s.Recorded)
    {action : Action Key Value Tid} (hstep : s.step action = some next) : next.Recorded := by
  cases State.move_of_step hstep with
  | put | get | remove | size | enter => exact h.append rfl
  | sweep hphase hrunning => exact h.append (by simp [TExpiringCache.after, hrunning])
  | tick elapsed =>
    refine ⟨h.cache_eq, h.ordered, fun event hevent => (h.past event hevent).trans ?_⟩
    show s.clock ≤ s.clock + elapsed
    omega
  | lock | compute | find | sleep | testAgain | giveUp | exit | spuriousWake | timeout | notify
  | pass | skip | join | joinAgain => exact ⟨h.cache_eq, h.ordered, h.past⟩

/-- Every interleaving of the handler, the callers and the clock amounts to a
sequential history of critical sections at non-decreasing readings, so the
results about histories hold of every reachable state. -/
theorem recorded_of_reachable {s : State Q Value Tid}
    (hreach : (cacheMachine Q Value Tid).Reachable s) : s.Recorded := by
  refine transition.Machine.Reachable.invariant ?_ ?_ hreach
  · rintro s ⟨clock, rfl⟩
    exact ⟨rfl, List.Pairwise.nil, by simp⟩
  · exact fun s action next hrecorded hstep => hrecorded.step hstep

end spdlogger.expiring_cache
