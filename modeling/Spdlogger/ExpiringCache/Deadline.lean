import Spdlogger.ExpiringCache.Recorded

namespace spdlogger.expiring_cache

variable {Key Value Tid : Type} [DecidableEq Key] [DecidableEq Tid] {Q : ExpirationQueue Key}

omit [DecidableEq Key] in
/-- The handler waits for no entry of the heap longer than to its expiration. -/
theorem TExpiringCache.timeToWaitUntil_le (self : TExpiringCache Q Value) :
    ∀ entry ∈ Q.items self.expirationQueue, self.timeToWaitUntil ≤ entry.expiration := by
  intro entry hentry
  unfold TExpiringCache.timeToWaitUntil
  cases htop : Q.top self.expirationQueue with
  | none =>
    rw [Q.items_of_top_none _ htop] at hentry
    simp at hentry
  | some top => exact HeapEntry.notAfter_iff.mp (Q.top_le _ top htop entry hentry)

omit [DecidableEq Key] in
/-- The top of the heap is due exactly when some entry is. -/
theorem TExpiringCache.wakePredicate_iff (self : TExpiringCache Q Value) (now : Int) :
    self.wakePredicate now = true ↔ self.isStopping = true ∨
      ∃ entry ∈ Q.items self.expirationQueue, entry.expiration ≤ now := by
  simp only [TExpiringCache.wakePredicate, Bool.or_eq_true, Option.any_eq_true,
    decide_eq_true_eq]
  refine or_congr_right ⟨?_, ?_⟩
  · rintro ⟨top, htop, hdue⟩
    exact ⟨top, Q.top_mem htop, hdue⟩
  · rintro ⟨entry, hentry, hdue⟩
    cases htop : Q.top self.expirationQueue with
    | none =>
      rw [Q.items_of_top_none _ htop] at hentry
      simp at hentry
    | some top =>
      have hle := HeapEntry.notAfter_iff.mp (Q.top_le _ top htop entry hentry)
      exact ⟨top, rfl, hle.trans hdue⟩

/-- A put whose entry precedes the whole heap notifies the handler. -/
theorem TExpiringCache.put_notifies (self : TExpiringCache Q Value)
    (hrunning : self.isStopping = false) (now : Int) (key : Key) (value : Value) (ttl : Int)
    (hfirst : ∀ entry ∈ Q.items self.expirationQueue, expirationAt now ttl < entry.expiration) :
    (self.put now key value ttl).2 = true := by
  simp only [TExpiringCache.put, hrunning, Bool.false_eq_true, ↓reduceIte]
  set pushed : HeapEntry Key := ⟨⟨expirationAt now ttl, self.currentGeneration + 1⟩, key⟩
    with hpushed
  have hitems := Q.items_push self.expirationQueue pushed
  cases htop : Q.top (Q.push self.expirationQueue pushed) with
  | none =>
    rw [Q.items_of_top_none _ htop] at hitems
    exact absurd hitems.symm (Multiset.cons_ne_zero)
  | some top =>
    have hmem := Q.top_mem htop
    have hle := HeapEntry.notAfter_iff.mp
      (Q.top_le _ top htop pushed (hitems ▸ Multiset.mem_cons_self _ _))
    rw [hitems, Multiset.mem_cons] at hmem
    rcases hmem with rfl | hold
    · simp [hpushed]
    · have := hfirst top hold
      simp only [hpushed] at hle
      omega

/-- The handler does not sleep past an entry: when the cache is not stopping and
the handler is blocked with no notification on its way, its deadline is no
later than any expiration in the heap. -/
def State.NeverOversleeps (s : State Q Value Tid) : Prop :=
  s.cache.isStopping = false → ∀ deadline, s.handler = .blocked deadline →
    ∀ entry ∈ Q.items s.cache.expirationQueue, deadline ≤ entry.expiration

/-- The puts that leave a waiting handler with a deadline it can keep: the new
expiration is no earlier than the deadline of the wait, or the wait is over at
the handler's next look because something has expired already. -/
def State.KeepsDeadline (s : State Q Value Tid) : Action Key Value Tid → Prop
  | .put _ _ ttl => s.cache.isStopping = false →
    match s.handler with
    | .blocked deadline =>
      deadline ≤ expirationAt s.clock ttl ∨ expirationAt s.clock ttl ≤ s.clock
    | .woken deadline =>
      deadline ≤ expirationAt s.clock ttl ∨ expirationAt s.clock ttl ≤ s.clock ∨
        ∃ entry ∈ Q.items s.cache.expirationQueue, entry.expiration ≤ s.clock
    | _ => True
  | _ => True

instance (s : State Q Value Tid) (action : Action Key Value Tid) :
    Decidable (s.KeepsDeadline action) :=
  match action with
  | .put _ _ ttl =>
    match hphase : s.handler with
    | .blocked deadline =>
      decidable_of_iff (s.cache.isStopping = false →
        deadline ≤ expirationAt s.clock ttl ∨ expirationAt s.clock ttl ≤ s.clock)
        (by simp only [State.KeepsDeadline, hphase])
    | .woken deadline =>
      have : Decidable (∃ entry ∈ Q.items s.cache.expirationQueue, entry.expiration ≤ s.clock) :=
        Multiset.decidableExistsMultiset
      decidable_of_iff (s.cache.isStopping = false →
        deadline ≤ expirationAt s.clock ttl ∨ expirationAt s.clock ttl ≤ s.clock ∨
          ∃ entry ∈ Q.items s.cache.expirationQueue, entry.expiration ≤ s.clock)
        (by simp only [State.KeepsDeadline, hphase])
    | .acquiring | .computing | .testing _ | .timedOut | .returned | .exited =>
      .isTrue fun _ => by simp only [hphase]
  | .get .. | .remove .. | .size .. | .tick .. | .handlerStep | .spuriousWake | .timeout
  | .stopStep .. => .isTrue trivial

/-- What a wait may rely on: a blocked handler's deadline bounds the heap; one
that is about to test its predicate may also find the test true. -/
def State.Armed (s : State Q Value Tid) : Prop :=
  match s.handler with
  | .blocked deadline => ∀ entry ∈ Q.items s.cache.expirationQueue, deadline ≤ entry.expiration
  | .testing deadline | .woken deadline =>
    (∀ entry ∈ Q.items s.cache.expirationQueue, deadline ≤ entry.expiration) ∨
      ∃ entry ∈ Q.items s.cache.expirationQueue, entry.expiration ≤ s.clock
  | _ => True

omit [DecidableEq Key] [DecidableEq Tid] in
/-- An armed handler does not oversleep. -/
theorem State.Armed.neverOversleeps {s : State Q Value Tid} (h : s.Armed) : s.NeverOversleeps := by
  intro _ deadline hblocked
  simpa only [State.Armed, hblocked] using h

omit [DecidableEq Key] [DecidableEq Tid] in
/-- A wake-up without any change to the heap keeps the handler armed. -/
theorem State.Armed.notified {s next : State Q Value Tid} (h : s.Armed)
    (hitems : Q.items next.cache.expirationQueue = Q.items s.cache.expirationQueue)
    (hclock : s.clock ≤ next.clock)
    (hhandler : next.handler = s.handler ∨ next.handler = s.handler.notified) : next.Armed := by
  have hlater : (∃ entry ∈ Q.items s.cache.expirationQueue, entry.expiration ≤ s.clock) →
      ∃ entry ∈ Q.items s.cache.expirationQueue, entry.expiration ≤ next.clock := by
    rintro ⟨entry, hentry, hdue⟩
    exact ⟨entry, hentry, hdue.trans hclock⟩
  unfold State.Armed at *
  rw [hitems]
  rcases hhandler with hsame | hwoken
  · rw [hsame]
    cases hphase : s.handler with
    | blocked deadline => simpa only [hphase] using h
    | testing deadline | woken deadline =>
      simp only [hphase] at h ⊢
      exact h.imp_right hlater
    | acquiring | computing | timedOut | returned | exited => trivial
  · rw [hwoken]
    cases hphase : s.handler with
    | blocked deadline =>
      simp only [hphase] at h
      exact .inl h
    | testing deadline | woken deadline =>
      simp only [hphase] at h
      exact h.imp_right hlater
    | acquiring | computing | timedOut | returned | exited => trivial

end spdlogger.expiring_cache
