import Spdlogger.ExpiringCache.Deadline

namespace spdlogger.expiring_cache

variable {Key Value Tid : Type} [DecidableEq Key] [DecidableEq Tid] {Q : ExpirationQueue Key}

/-- The two effects of a put on a cache that is not stopping that matter to a
waiting handler. -/
theorem TExpiringCache.items_put (self : TExpiringCache Q Value)
    (hrunning : self.isStopping = false) (now : Int) (key : Key) (value : Value) (ttl : Int) :
    Q.items (self.put now key value ttl).1.expirationQueue =
      ⟨⟨expirationAt now ttl, self.currentGeneration + 1⟩, key⟩ ::ₘ
        Q.items self.expirationQueue := by
  simp only [TExpiringCache.put, hrunning, Bool.false_eq_true, ↓reduceIte, Q.items_push]

/-- A put leaves the stop flag alone. -/
theorem TExpiringCache.isStopping_put (self : TExpiringCache Q Value) (now : Int) (key : Key)
    (value : Value) (ttl : Int) : (self.put now key value ttl).1.isStopping = self.isStopping := by
  unfold TExpiringCache.put
  split <;> rfl

omit [DecidableEq Tid] in
/-- A put that keeps the deadline keeps the handler armed. -/
theorem State.Armed.put {s : State Q Value Tid} (h : s.Armed) {key : Key} {value : Value}
    {ttl : Int} (hkeeps : s.KeepsDeadline (.put key value ttl))
    (hfree : s.handler.mutexFree = true) :
    State.Armed { s with
      cache := (s.cache.put s.clock key value ttl).1
      handler := s.notifyIf (s.cache.put s.clock key value ttl).2
      history := s.record (.put key value ttl) } := by
  cases hstopping : s.cache.isStopping with
  | true =>
    refine h.notified ?_ le_rfl ?_
    · simp [TExpiringCache.put, hstopping]
    · simp [TExpiringCache.put, hstopping, State.notifyIf]
  | false =>
    have hitems := s.cache.items_put hstopping s.clock key value ttl
    have hkeeps' := hkeeps hstopping
    cases hphase : s.handler with
    | computing | testing | returned => simp [hphase, HandlerPhase.mutexFree] at hfree
    | acquiring | timedOut | exited =>
      unfold State.notifyIf
      split <;> simp [State.Armed, hphase, HandlerPhase.notified]
    | woken deadline =>
      simp only [State.Armed, hphase] at h
      have hphase' : s.notifyIf (s.cache.put s.clock key value ttl).2 = .woken deadline := by
        unfold State.notifyIf
        split <;> simp [hphase, HandlerPhase.notified]
      simp only [State.Armed, hphase', hitems, Multiset.mem_cons, forall_eq_or_imp,
        exists_eq_or_imp]
      simp only [hphase] at hkeeps'
      rcases hkeeps' with hlate | hpast | hexpired
      · rcases h with hold | hdue
        · exact .inl ⟨hlate, hold⟩
        · exact .inr (.inr hdue)
      · exact .inr (.inl hpast)
      · exact .inr (.inr hexpired)
    | blocked deadline =>
      simp only [State.Armed, hphase] at h
      simp only [hphase] at hkeeps'
      by_cases hlate : deadline ≤ expirationAt s.clock ttl
      · -- The bound survives whether or not the put notifies.
        have hbound : ∀ entry ∈ Q.items (s.cache.put s.clock key value ttl).1.expirationQueue,
            deadline ≤ entry.expiration := by
          rw [hitems]
          intro entry hentry
          rcases Multiset.mem_cons.mp hentry with rfl | hold
          · exact hlate
          · exact h entry hold
        unfold State.notifyIf
        split
        · simpa only [State.Armed, hphase, HandlerPhase.notified] using .inl hbound
        · simpa only [State.Armed, hphase] using hbound
      · -- The new entry is first in the heap and has expired: the handler is
        -- notified and will find its predicate true.
        have hpast := hkeeps'.resolve_left hlate
        have hnotify := s.cache.put_notifies hstopping s.clock key value ttl fun entry hentry => by
          have := h entry hentry
          omega
        have hphase' : s.notifyIf (s.cache.put s.clock key value ttl).2 = .woken deadline := by
          simp [State.notifyIf, hnotify, hphase, HandlerPhase.notified]
        simp only [State.Armed, hphase', hitems]
        exact .inr ⟨_, Multiset.mem_cons_self _ _, hpast⟩

/-- Each step that keeps the deadline keeps the handler armed. -/
theorem State.Armed.step {s next : State Q Value Tid} (h : s.Armed) {action : Action Key Value Tid}
    (hkeeps : s.KeepsDeadline action) (hstep : s.step action = some next) : next.Armed := by
  cases State.move_of_step hstep with
  | put key value ttl hfree => exact h.put hkeeps hfree
  | remove key =>
    refine h.notified ?_ le_rfl ?_
    · unfold TExpiringCache.remove
      split <;> rfl
    · unfold State.notifyIf
      split
      · exact .inr rfl
      · exact .inl rfl
  | tick elapsed => exact h.notified rfl (by simp) (.inl rfl)
  | compute => exact .inl s.cache.timeToWaitUntil_le
  | sleep deadline hphase hwakes =>
    simp only [State.Armed, hphase] at h
    refine h.resolve_right fun hdue => ?_
    rw [(s.cache.wakePredicate_iff s.clock).mpr (.inr hdue)] at hwakes
    cases hwakes
  | testAgain deadline hphase =>
    simp only [State.Armed, hphase] at h
    exact h
  | spuriousWake deadline hphase =>
    exact h.notified rfl le_rfl (.inr (by simp [hphase, HandlerPhase.notified]))
  | notify => exact h.notified rfl le_rfl (.inr rfl)
  | lock | find | giveUp | exit | sweep | timeout => trivial
  | get | size | enter | pass | skip | join | joinAgain => exact h

/-- In a run whose puts keep the deadline, the handler is always armed. -/
theorem armed_of_reachableBy {s : State Q Value Tid}
    (hreach : (cacheMachine Q Value Tid).ReachableBy State.KeepsDeadline s) : s.Armed := by
  refine transition.Machine.ReachableBy.invariant ?_ ?_ hreach
  · rintro s ⟨clock, rfl⟩
    trivial
  · exact fun s action next _ harmed hkeeps hstep => harmed.step hkeeps hstep

end spdlogger.expiring_cache
