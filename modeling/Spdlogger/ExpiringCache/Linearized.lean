import Spdlogger.ExpiringCache.Moments

namespace spdlogger.expiring_cache

open linearizable (Status Object)

variable {Key Value Tid : Type} [DecidableEq Key] [DecidableEq Tid] {Q : ExpirationQueue Key}
  {admits : TimedCache Q Value → Int → Prop} {s next : Interleaved Q Value Tid} {thread : Tid}

omit [DecidableEq Key] in
/-- A method that has just locked holds the lock in its own mode. -/
theorem CallerPosition.mode_locked (op : Op Key Value) :
    op.locked.mode = if op.isShared then .shared else .exclusive := by
  cases op <;> rfl

theorem CallerPosition.fits_locked (op : Op Key Value) (cache : TExpiringCache Q Value) :
    op.locked.Fits cache := by
  cases op <;> trivial

omit [DecidableEq Key] in
theorem CallerPosition.status_locked (op : Op Key Value) : op.locked.status = .pending op := by
  cases op <;> rfl

theorem CallerPosition.complete_locked (op : Op Key Value) (cache : TExpiringCache Q Value) :
    op.locked.complete cache = cache := by
  cases op <;> rfl

/-- A thread locks the mutex. -/
theorem Interleaved.Linked.enters (h : s.Linked admits) {op : Op Key Value}
    (hposition : s.callers thread = .acquiring op) {dataMutex : SharedMutex (Option Tid)}
    (hlock : (if op.isShared then s.dataMutex.lockShared (some thread)
      else s.dataMutex.lock (some thread)) = some dataMutex) :
    ({ s.setCaller thread op.locked with dataMutex } : Interleaved Q Value Tid).Linked admits := by
  have hbefore : s.dataMutex.writer = none := by
    split at hlock
    · exact (Option.ite_none_right_eq_some.mp hlock).1
    · exact (Option.ite_none_right_eq_some.mp hlock).1.1
  have hafter : ({ s.setCaller thread op.locked with dataMutex } : Interleaved Q Value Tid).mode =
      Function.update s.mode (some thread) op.locked.mode := Interleaved.mode_update rfl rfl
  have hcompleted :
      ({ s.setCaller thread op.locked with dataMutex } : Interleaved Q Value Tid).completed =
        s.completed := by
    rw [Interleaved.completed_of_none hbefore]
    split at hlock
    · simp only [SharedMutex.lockShared, Option.ite_none_right_eq_some, Option.some.injEq] at hlock
      obtain ⟨hwriter, rfl⟩ := hlock
      simp [Interleaved.completed, Interleaved.setCaller, hwriter]
    · simp only [SharedMutex.lock, Option.ite_none_right_eq_some, Option.some.injEq] at hlock
      obtain ⟨_, rfl⟩ := hlock
      simp [Interleaved.completed, Interleaved.setCaller, CallerPosition.complete_locked]
  refine ⟨?_, fun other => ?_, ?_⟩
  · rw [hafter, CallerPosition.mode_locked]
    cases hshared : op.isShared with
    | true =>
      rw [if_pos hshared] at hlock
      exact h.held.lockShared hlock
    | false =>
      rw [if_neg (by simp [hshared])] at hlock
      exact h.held.lock hlock
  · by_cases hother : other = thread
    · subst hother
      simpa [Interleaved.setCaller] using CallerPosition.fits_locked op s.cache
    · simpa [Interleaved.setCaller, Function.update_of_ne hother] using h.fits other
  · rw [hcompleted]
    show (cacheObject Q Value admits).Produces _
      (fun other => (Function.update s.callers thread op.locked other).status) s.history
    have hsame : op.locked.status = (s.callers thread).status := by
      rw [hposition, CallerPosition.status_locked]
      rfl
    rw [status_update, hsame, Function.update_eq_self (f := fun other => (s.callers other).status)]
    exact h.produces

/-- A thread unlocks the mutex. -/
theorem Interleaved.Linked.leaves (h : s.Linked admits) {position : CallerPosition Key Value}
    (hbefore : (s.callers thread).mode ≠ .free) (hposition : position.mode = .free)
    (hstatus : position.status = (s.callers thread).status)
    (hcomplete : (s.callers thread).complete s.cache = s.cache)
    {dataMutex : SharedMutex (Option Tid)} (hmutex : dataMutex =
      if (s.callers thread).mode = .shared then s.dataMutex.unlockShared (some thread)
      else s.dataMutex.unlock) :
    ({ s.setCaller thread position with dataMutex } : Interleaved Q Value Tid).Linked admits := by
  have hafter : ({ s.setCaller thread position with dataMutex } : Interleaved Q Value Tid).mode =
      Function.update s.mode (some thread) position.mode := Interleaved.mode_update rfl rfl
  have hmode : s.mode (some thread) = (s.callers thread).mode := rfl
  have hheld : SharedMutex.HeldBy (Function.update s.mode (some thread) .free) dataMutex ∧
      dataMutex.writer = none ∧ s.completed = s.cache := by
    cases hcaller : (s.callers thread).mode with
    | free => exact absurd hcaller hbefore
    | shared =>
      rw [if_pos hcaller] at hmutex
      have hwriter := h.held.writer_eq_none (hmode.trans hcaller)
      rw [hmutex]
      exact ⟨h.held.unlockShared (hmode.trans hcaller), hwriter, Interleaved.completed_of_none hwriter⟩
    | exclusive =>
      rw [if_neg (by simp [hcaller])] at hmutex
      rw [hmutex, h.completed_of_caller hcaller]
      exact ⟨h.held.unlock (hmode.trans hcaller), rfl, hcomplete⟩
  obtain ⟨hheld, hwriter, hcompleted⟩ := hheld
  refine ⟨?_, fun other => ?_, ?_⟩
  · rw [hafter, hposition]
    exact hheld
  · by_cases hother : other = thread
    · subst hother
      simpa [Interleaved.setCaller] using CallerPosition.fits_of_free hposition s.cache
    · simpa [Interleaved.setCaller, Function.update_of_ne hother] using h.fits other
  · have hsame : ({ s.setCaller thread position with dataMutex } : Interleaved Q Value Tid).completed =
        s.completed := (Interleaved.completed_of_none hwriter).trans hcompleted.symm
    rw [hsame]
    show (cacheObject Q Value admits).Produces _
      (fun other => (Function.update s.callers thread position other).status) s.history
    rw [status_update, hstatus, Function.update_eq_self (f := fun other => (s.callers other).status)]
    exact h.produces

omit [DecidableEq Key] in
theorem Interleaved.mode_handler (cache : TExpiringCache Q Value)
    (dataMutex : SharedMutex (Option Tid)) (position : HandlerPosition) :
    ({ s with cache, dataMutex, handler := position } : Interleaved Q Value Tid).mode =
      Function.update s.mode none position.mode := by
  funext owner
  cases owner with
  | none =>
    rw [Function.update_self]
    rfl
  | some other =>
    rw [Function.update_of_ne (by simp)]
    rfl

/-- The handler locks the mutex. -/
theorem Interleaved.Linked.handler_enters (h : s.Linked admits) {position : HandlerPosition}
    (hposition : position.mode = .exclusive) (hcomplete : position.complete s.cache = s.cache)
    {dataMutex : SharedMutex (Option Tid)} (hlock : s.dataMutex.lock none = some dataMutex) :
    ({ s with dataMutex, handler := position } : Interleaved Q Value Tid).Linked admits := by
  have hheld := h.held.lock hlock
  simp only [SharedMutex.lock, Option.ite_none_right_eq_some, Option.some.injEq] at hlock
  obtain ⟨⟨hbefore, _⟩, hlock⟩ := hlock
  have hcompleted : ({ s with dataMutex, handler := position } : Interleaved Q Value Tid).completed =
      s.completed := by
    rw [Interleaved.completed_of_none hbefore, ← hcomplete]
    simp [Interleaved.completed, ← hlock, hcomplete]
  refine ⟨?_, h.fits, ?_⟩
  · rw [Interleaved.mode_handler]
    rw [← hposition] at hheld
    exact hheld
  · rw [hcompleted]
    exact h.produces

/-- The handler unlocks it. -/
theorem Interleaved.Linked.handler_leaves (h : s.Linked admits) {position : HandlerPosition}
    (hbefore : s.handler.mode = .exclusive) (hposition : position.mode = .free)
    (hcomplete : s.handler.complete s.cache = s.cache) :
    ({ s with dataMutex := s.dataMutex.unlock, handler := position } :
      Interleaved Q Value Tid).Linked admits := by
  have hcompleted : ({ s with dataMutex := s.dataMutex.unlock, handler := position } :
      Interleaved Q Value Tid).completed = s.completed := by
    rw [h.completed_of_handler hbefore, hcomplete]
    rfl
  refine ⟨?_, h.fits, ?_⟩
  · rw [Interleaved.mode_handler]
    have hheld := h.held.unlock (show s.mode none = .exclusive from hbefore)
    rw [← hposition] at hheld
    exact hheld
  · rw [hcompleted]
    exact h.produces

/-- The handler goes on under the lock. -/
theorem Interleaved.Linked.handler_goes (h : s.Linked admits) (position : HandlerPosition)
    {cache : TExpiringCache Q Value} (hbefore : s.handler.mode = .exclusive)
    (hposition : position.mode = .exclusive)
    (hcomplete : position.complete cache = s.handler.complete s.cache ∨
      s.handler.complete s.cache = s.cache ∧ position.complete cache = s.cache.sweep s.clock) :
    ({ s with cache, handler := position } : Interleaved Q Value Tid).Linked admits := by
  have hmode : s.mode none = .exclusive := hbefore
  have hwriter := (h.held.writer none).mp hmode
  have hcompleted : ({ s with cache, handler := position } : Interleaved Q Value Tid).completed =
      position.complete cache := by
    simp only [Interleaved.completed, hwriter]
  refine ⟨?_, fun other => h.fits_of_exclusive hmode (by simp) cache, ?_⟩
  · rw [Interleaved.mode_handler]
    exact h.held.within (hposition.trans hmode.symm)
  · have hproduces := h.produces
    rw [h.completed_of_handler hbefore] at hproduces
    rw [hcompleted]
    obtain hsame | ⟨hcache, hsweep⟩ := hcomplete
    · rw [hsame]
      exact hproduces
    · rw [hcache] at hproduces
      exact hproduces.evolve (.inr ⟨hsweep, rfl⟩)

/-- It sleeps, or wakes up. -/
theorem Interleaved.Linked.handler_outside (h : s.Linked admits) {position : HandlerPosition}
    (hbefore : s.handler.mode = .free) (hposition : position.mode = .free) :
    ({ s with handler := position } : Interleaved Q Value Tid).Linked admits := by
  have hwriter : s.dataMutex.writer ≠ some none := by
    intro hwriter
    have hexclusive := (h.held.writer none).mpr hwriter
    rw [show s.mode none = .free from hbefore] at hexclusive
    cases hexclusive
  have hcompleted : ({ s with handler := position } : Interleaved Q Value Tid).completed =
      s.completed := by
    unfold Interleaved.completed
    cases howner : s.dataMutex.writer with
    | none => rfl
    | some owner =>
      cases owner with
      | none => exact absurd howner hwriter
      | some other => rfl
  refine ⟨?_, h.fits, ?_⟩
  · rw [Interleaved.mode_handler]
    exact h.held.within (hposition.trans hbefore.symm)
  · rw [hcompleted]
    exact h.produces

/-- One round of the inner loop brings the sweep on. -/
theorem TExpiringCache.sweep_pop {self : TExpiringCache Q Value} {now : Int}
    {expiredData : HeapEntry Key} (htop : Q.top self.expirationQueue = some expiredData)
    (hdue : expiredData.expiration ≤ now) :
    ({ self with
      expirationQueue := Q.pop self.expirationQueue
      lookupMap := evict self.lookupMap expiredData } : TExpiringCache Q Value).sweep now =
      self.sweep now := by
  have hdrain : Q.drain (fun top => decide (top.expiration ≤ now)) evict self.expirationQueue
      self.lookupMap = Q.drain (fun top => decide (top.expiration ≤ now)) evict
        (Q.pop self.expirationQueue) (evict self.lookupMap expiredData) := by
    rw [PriorityQueue.drain]
    split
    · rename_i hnone
      rw [htop] at hnone
      cases hnone
    · rename_i top hsome
      rw [htop, Option.some.injEq] at hsome
      subst hsome
      rw [if_pos (by simpa using hdue)]
  simp only [TExpiringCache.sweep, hdrain]

/-- It is over when nothing on top is due. -/
theorem TExpiringCache.sweep_of_not_due {self : TExpiringCache Q Value} {now : Int}
    (hnot : ∀ top, Q.top self.expirationQueue = some top → ¬ top.expiration ≤ now) :
    self.sweep now = self := by
  have hdrain : Q.drain (fun top => decide (top.expiration ≤ now)) evict self.expirationQueue
      self.lookupMap = (self.expirationQueue, self.lookupMap) := by
    rw [PriorityQueue.drain]
    split
    · rfl
    · rename_i top hsome
      rw [if_neg (by simpa using hnot top hsome)]
  simp only [TExpiringCache.sweep, hdrain]

/-- The time to live that a thread is about to add to the clock. -/
def CallerPosition.requested : CallerPosition Key Value → Option Int
  | .reading _ _ ttl => some ttl
  | _ => none

/-- Of the puts, only those that `admits` tells. -/
def Interleaved.Permits (admits : TimedCache Q Value → Int → Prop) (s : Interleaved Q Value Tid) :
    InterleavedAction Key Value Tid → Prop
  | .callerStep thread => ∀ ttl ∈ (s.callers thread).requested, admits ⟨s.cache, s.clock⟩ ttl
  | _ => True

instance [∀ value ttl, Decidable (admits value ttl)] (action : InterleavedAction Key Value Tid) :
    Decidable (s.Permits admits action) :=
  match action with
  | .callerStep thread => inferInstanceAs
      (Decidable (∀ ttl ∈ (s.callers thread).requested, admits ⟨s.cache, s.clock⟩ ttl))
  | .call _ _ | .tick _ | .handlerStep | .spuriousWake | .timeout => .isTrue trivial

/-- The test of the flag. A method that is refused has taken effect. -/
theorem Interleaved.Linked.tests (h : s.Linked admits) {op : Op Key Value}
    (hposition : s.callers thread = .testing op) :
    (s.setCaller thread (if s.cache.isStopping then op.refused else op.admitted)).Linked admits := by
  cases hstopping : s.cache.isStopping with
  | true =>
    cases op with
    | get key =>
      refine h.shared (by rw [hposition]; rfl) rfl trivial (.inr ⟨.get key, .found none, ?_, rfl, ?_, ?_⟩)
      · rw [hposition]
        rfl
      · simp
      · simp [TExpiringCache.call, TExpiringCache.get, hstopping]
    | size =>
      refine h.shared (by rw [hposition]; rfl) rfl trivial (.inr ⟨.size, .size 0, ?_, rfl, ?_, ?_⟩)
      · rw [hposition]
        rfl
      · simp
      · simp [TExpiringCache.call, TExpiringCache.size, hstopping]
    | put key value ttl =>
      refine h.exclusive (.leaving false .done) (by rw [hposition]; rfl) rfl trivial rfl rfl
        rfl rfl rfl (.inr ⟨.put key value ttl, .done, ?_, rfl, ?_, ?_, ?_⟩)
      · rw [hposition]
        rfl
      · rw [hposition]
        rfl
      · simp [TExpiringCache.call, TExpiringCache.put, hstopping, Interleaved.setCaller,
          CallerPosition.complete]
      · simp [hstopping]
    | remove key =>
      refine h.exclusive (.leaving false (.removed false)) (by rw [hposition]; rfl) rfl
        trivial rfl rfl rfl rfl rfl (.inr ⟨.remove key, .removed false, ?_, rfl, ?_, ?_, ?_⟩)
      · rw [hposition]
        rfl
      · rw [hposition]
        rfl
      · simp [TExpiringCache.call, TExpiringCache.remove, hstopping, Interleaved.setCaller,
          CallerPosition.complete]
      · simp
    | stop =>
      refine h.exclusive .setting (by rw [hposition]; rfl) rfl trivial rfl rfl rfl rfl rfl
        (.inl ⟨?_, ?_⟩) <;>
      · rw [hposition]
        rfl
  | false =>
    cases op with
    | get key | size =>
      refine h.shared (by rw [hposition]; rfl) rfl hstopping (.inl ?_)
      rw [hposition]
      rfl
    | put key value ttl =>
      refine h.exclusive (.reading key value ttl) (by rw [hposition]; rfl) rfl hstopping rfl
        rfl rfl rfl rfl (.inl ⟨?_, ?_⟩) <;>
      · rw [hposition]
        rfl
    | remove key =>
      refine h.exclusive (.erasing key) (by rw [hposition]; rfl) rfl hstopping rfl rfl rfl rfl
        rfl (.inl ⟨?_, ?_⟩) <;>
      · rw [hposition]
        rfl
    | stop =>
      refine h.exclusive .setting (by rw [hposition]; rfl) rfl trivial rfl rfl rfl rfl rfl
        (.inl ⟨?_, ?_⟩) <;>
      · rw [hposition]
        rfl

/-- A statement under the lock. -/
theorem Interleaved.Linked.inside (h : s.Linked admits)
    (hpermits : s.Permits admits (.callerStep thread)) {position : CallerPosition Key Value}
    (hposition : s.callers thread = position) (hstep : s.insideStep thread position = some next) :
    next.Linked admits := by
  have hfits := h.fits thread
  rw [hposition] at hfits
  cases position with
  | testing op =>
    simp only [Interleaved.insideStep, Option.some.injEq] at hstep
    subst hstep
    exact h.tests hposition
  | reading key value ttl =>
    simp only [Interleaved.insideStep, Option.some.injEq] at hstep
    subst hstep
    have hrunning : s.cache.isStopping = false := hfits
    refine h.exclusive (.assigning key value (expirationAt s.clock ttl)) (by rw [hposition]; rfl) rfl
      trivial rfl rfl rfl rfl rfl (.inr ⟨.put key value ttl, .done, ?_, rfl, ?_, ?_, ?_⟩)
    · rw [hposition]
      rfl
    · rw [hposition]
      rfl
    · simp [TExpiringCache.call, TExpiringCache.put, hrunning, Interleaved.setCaller,
        CallerPosition.complete]
    · intro other written time hput _
      simp only [Op.put.injEq] at hput
      refine hput.2.2 ▸ hpermits ttl ?_
      rw [hposition]
      rfl
  | assigning key value expiration =>
    simp only [Interleaved.insideStep, Option.some.injEq] at hstep
    subst hstep
    refine h.exclusive (.pushing key ⟨expiration, s.cache.currentGeneration + 1⟩)
      (by rw [hposition]; rfl) rfl trivial rfl rfl rfl rfl rfl (.inl ⟨?_, ?_⟩) <;>
    · rw [hposition]
      rfl
  | pushing key metadata =>
    simp only [Interleaved.insideStep, Option.some.injEq] at hstep
    subst hstep
    refine h.exclusive (.topping key .done) (by rw [hposition]; rfl) rfl trivial rfl rfl rfl rfl rfl
      (.inl ⟨?_, ?_⟩) <;>
    · rw [hposition]
      rfl
  | topping key ret =>
    simp only [Interleaved.insideStep, Option.some.injEq] at hstep
    subst hstep
    refine h.exclusive (.leaving false ret) (by rw [hposition]; rfl) rfl trivial rfl ?_ rfl rfl rfl
      (.inl ⟨?_, ?_⟩)
    · dsimp only
      split
      · exact HandlerPosition.mode_notified s.handler
      · rfl
    · rw [hposition]
      rfl
    · rw [hposition]
      rfl
  | finding key =>
    have hrunning : s.cache.isStopping = false := hfits
    cases hfound : s.cache.lookupMap.lookup key with
    | none =>
      simp only [Interleaved.insideStep, hfound, Option.some.injEq] at hstep
      subst hstep
      refine h.shared (by rw [hposition]; rfl) rfl trivial
        (.inr ⟨.get key, .found none, ?_, rfl, ?_, ?_⟩)
      · rw [hposition]
        rfl
      · simp
      · simp [TExpiringCache.call, TExpiringCache.get, hrunning, hfound]
    | some foundElement =>
      simp only [Interleaved.insideStep, hfound, Option.some.injEq] at hstep
      subst hstep
      refine h.shared (by rw [hposition]; rfl) rfl ⟨hrunning, hfound⟩ (.inl ?_)
      rw [hposition]
      rfl
  | comparing key foundElement =>
    obtain ⟨hrunning, hfound⟩ := hfits
    simp only [Interleaved.insideStep, Option.some.injEq] at hstep
    subst hstep
    refine h.shared (by rw [hposition]; rfl) rfl trivial (.inr ⟨.get key, _, ?_, rfl, ?_, ?_⟩)
    · rw [hposition]
      rfl
    · simp
    · simp [TExpiringCache.call, TExpiringCache.get, hrunning, hfound]
  | erasing key =>
    have hrunning : s.cache.isStopping = false := hfits
    simp only [Interleaved.insideStep, Option.some.injEq] at hstep
    subst hstep
    refine h.exclusive (.topping key (.removed (s.cache.lookupMap.lookup key).isSome))
      (by rw [hposition]; rfl) rfl trivial rfl rfl rfl rfl rfl (.inr ⟨.remove key, _, ?_, rfl, ?_, ?_, ?_⟩)
    · rw [hposition]
      rfl
    · rw [hposition]
      rfl
    · simp [TExpiringCache.call, TExpiringCache.remove, hrunning, CallerPosition.complete]
    · simp
  | counting =>
    have hrunning : s.cache.isStopping = false := hfits
    simp only [Interleaved.insideStep, Option.some.injEq] at hstep
    subst hstep
    refine h.shared (by rw [hposition]; rfl) rfl trivial (.inr ⟨.size, _, ?_, rfl, ?_, ?_⟩)
    · rw [hposition]
      rfl
    · simp
    · simp [TExpiringCache.call, TExpiringCache.size, hrunning]
  | setting =>
    simp only [Interleaved.insideStep, Option.some.injEq] at hstep
    subst hstep
    refine h.exclusive .releasing (by rw [hposition]; rfl) rfl trivial rfl rfl rfl rfl rfl
      (.inr ⟨.stop, .done, ?_, rfl, ?_, rfl, ?_⟩)
    · rw [hposition]
      rfl
    · rw [hposition]
      rfl
    · simp
  | idle | acquiring | leaving | releasing | notifying | testingJoinable | joining | returned | threw =>
    cases hstep

/-- A step of a caller keeps the cache and the object together. -/
theorem Interleaved.Linked.caller (h : s.Linked admits)
    (hpermits : s.Permits admits (.callerStep thread)) (hstep : s.callerStep thread = some next) :
    next.Linked admits := by
  have hstatus (position : CallerPosition Key Value)
      (hsame : position.status = (s.callers thread).status) :
      (cacheObject Q Value admits).Produces ⟨s.completed, s.clock⟩
        (Function.update (fun other => (s.callers other).status) thread position.status) s.history := by
    rw [hsame, Function.update_eq_self (f := fun other => (s.callers other).status)]
    exact h.produces
  cases hposition : s.callers thread with
  | idle => simp [Interleaved.callerStep, hposition] at hstep
  | acquiring op =>
    simp only [Interleaved.callerStep, hposition, Option.map_eq_some_iff] at hstep
    obtain ⟨dataMutex, hlock, rfl⟩ := hstep
    exact h.enters hposition hlock
  | leaving shared ret =>
    simp only [Interleaved.callerStep, hposition, Option.some.injEq] at hstep
    subst hstep
    refine h.leaves ?_ rfl ?_ ?_ ?_
    · rw [hposition]
      cases shared <;> simp [CallerPosition.mode]
    · rw [hposition]
      rfl
    · rw [hposition]
      rfl
    · rw [hposition]
      cases shared <;> rfl
  | releasing =>
    simp only [Interleaved.callerStep, hposition, Option.some.injEq] at hstep
    subst hstep
    refine h.leaves ?_ rfl ?_ ?_ ?_ <;> rw [hposition] <;> first | rfl | simp [CallerPosition.mode]
  | notifying =>
    simp only [Interleaved.callerStep, hposition, Option.some.injEq] at hstep
    subst hstep
    refine h.outside .testingJoinable (by rw [hposition]; rfl) rfl rfl (.inr rfl) rfl rfl ?_
    exact hstatus .testingJoinable (by rw [hposition]; rfl)
  | testingJoinable =>
    simp only [Interleaved.callerStep, hposition, Option.some.injEq] at hstep
    subst hstep
    refine h.outside (if s.joinable then .joining else .returned .done) (by rw [hposition]; rfl) ?_ rfl
      (.inl rfl) rfl rfl (hstatus _ ?_)
    · split <;> rfl
    · rw [hposition]
      split <;> rfl
  | joining =>
    simp only [Interleaved.callerStep, hposition, Option.ite_none_right_eq_some, Option.some.injEq]
      at hstep
    obtain ⟨_, rfl⟩ := hstep
    refine h.outside (if s.joinable then .returned .done else .threw) (by rw [hposition]; rfl) ?_ rfl
      (.inl rfl) rfl rfl (hstatus _ ?_)
    · split <;> rfl
    · rw [hposition]
      split <;> rfl
  | returned ret =>
    simp only [Interleaved.callerStep, hposition, Option.some.injEq] at hstep
    subst hstep
    refine h.outside .idle (by rw [hposition]; rfl) rfl rfl (.inl rfl) rfl rfl ?_
    exact h.produces.respond thread (by rw [hposition]; rfl)
  | threw =>
    simp only [Interleaved.callerStep, hposition, Option.some.injEq] at hstep
    subst hstep
    refine h.outside .idle (by rw [hposition]; rfl) rfl rfl (.inl rfl) rfl rfl ?_
    exact h.produces.raise thread (show (s.callers thread).status = .done .done by rw [hposition]; rfl)
  | testing | reading | assigning | pushing | topping | finding | comparing | erasing | counting
  | setting =>
    simp only [Interleaved.callerStep, hposition] at hstep
    exact h.inside hpermits hposition hstep

/-- A step of the handler keeps the cache and the object together. -/
theorem Interleaved.Linked.handler (h : s.Linked admits) (hstep : s.handlerStep = some next) :
    next.Linked admits := by
  cases hposition : s.handler with
  | acquiring | woken deadline | timedOut =>
    simp only [Interleaved.handlerStep, hposition, Option.map_eq_some_iff] at hstep
    obtain ⟨dataMutex, hlock, rfl⟩ := hstep
    exact h.handler_enters rfl rfl hlock
  | computing =>
    simp only [Interleaved.handlerStep, hposition, Option.some.injEq] at hstep
    subst hstep
    exact h.handler_goes (.testing _) (by rw [hposition]; rfl) rfl (.inl (by rw [hposition]; rfl))
  | testing deadline =>
    simp only [Interleaved.handlerStep, hposition] at hstep
    split at hstep
    · cases hstep
      exact h.handler_goes .returned (by rw [hposition]; rfl) rfl (.inl (by rw [hposition]; rfl))
    · cases hstep
      exact h.handler_leaves (by rw [hposition]; rfl) rfl (by rw [hposition]; rfl)
  | returned =>
    simp only [Interleaved.handlerStep, hposition] at hstep
    split at hstep
    · cases hstep
      exact h.handler_leaves (by rw [hposition]; rfl) rfl (by rw [hposition]; rfl)
    · cases hstep
      exact h.handler_goes (.sweeping s.clock) (by rw [hposition]; rfl) rfl
        (.inr ⟨by rw [hposition]; rfl, rfl⟩)
  | sweeping now =>
    have hthrough (hover : s.cache.sweep now = s.cache) :
        ({ s with handler := .computing } : Interleaved Q Value Tid).Linked admits := by
      refine h.handler_goes .computing (by rw [hposition]; rfl) rfl (.inl ?_)
      rw [hposition]
      exact hover.symm
    simp only [Interleaved.handlerStep, hposition] at hstep
    split at hstep
    · rename_i hnone
      cases hstep
      exact hthrough (TExpiringCache.sweep_of_not_due fun top htop => by rw [hnone] at htop; cases htop)
    · rename_i expiredData htop
      split at hstep
      · rename_i hdue
        cases hstep
        refine h.handler_goes (.sweeping now) (by rw [hposition]; rfl) rfl (.inl ?_)
        rw [hposition]
        exact TExpiringCache.sweep_pop htop hdue
      · rename_i hlater
        cases hstep
        refine hthrough (TExpiringCache.sweep_of_not_due fun top hother => ?_)
        rw [htop, Option.some.injEq] at hother
        exact hother ▸ hlater
  | blocked | exited => simp [Interleaved.handlerStep, hposition] at hstep

/-- Each step keeps the cache and the object together. -/
theorem Interleaved.Linked.step (h : s.Linked admits) {action : InterleavedAction Key Value Tid}
    (hpermits : s.Permits admits action) (hstep : s.step action = some next) :
    next.Linked admits := by
  cases action with
  | call thread op =>
    cases hposition : s.callers thread with
    | idle =>
      simp only [Interleaved.step, hposition, Option.some.injEq] at hstep
      subst hstep
      refine h.outside (.acquiring op) (by rw [hposition]; rfl) rfl rfl (.inl rfl) rfl rfl ?_
      exact h.produces.invoke thread op (by rw [hposition]; rfl)
    | _ => simp [Interleaved.step, hposition] at hstep
  | callerStep thread => exact h.caller hpermits hstep
  | tick elapsed =>
    simp only [Interleaved.step, Option.some.injEq] at hstep
    subst hstep
    refine ⟨h.held, h.fits, h.produces.evolve (.inl ⟨rfl, ?_⟩)⟩
    dsimp only
    omega
  | handlerStep => exact h.handler hstep
  | spuriousWake =>
    cases hposition : s.handler with
    | blocked deadline =>
      simp only [Interleaved.step, hposition, Option.some.injEq] at hstep
      subst hstep
      exact h.handler_outside (by rw [hposition]; rfl) rfl
    | _ => simp [Interleaved.step, hposition] at hstep
  | timeout =>
    cases hposition : s.handler with
    | blocked deadline =>
      simp only [Interleaved.step, hposition, Option.ite_none_right_eq_some, Option.some.injEq] at hstep
      obtain ⟨_, rfl⟩ := hstep
      exact h.handler_outside (by rw [hposition]; rfl) rfl
    | _ => simp [Interleaved.step, hposition] at hstep

/-- In every run with permitted puts the history is one that the object produces. -/
theorem Interleaved.linked_of_reachableBy
    (hreach : (interleavedMachine Q Value Tid).ReachableBy (Interleaved.Permits admits) s) :
    s.Linked admits := by
  refine transition.Machine.ReachableBy.invariant (I := Interleaved.Linked admits) ?_ ?_ hreach
  · rintro s ⟨clock, rfl⟩
    refine ⟨?_, fun _ => trivial, .init rfl⟩
    have hfree : ({ clock } : Interleaved Q Value Tid).mode = fun _ => .free := by
      funext owner
      cases owner <;> rfl
    rw [hfree]
    exact SharedMutex.heldBy_free
  · exact fun s action next _ h hpermits hstep => h.step hpermits hstep

/-- The methods are atomic. However the threads inside the methods, the handler between
the rounds of its sweep, its wake-ups and the clock interleave: the results are those of
methods that take place as a whole, each at one moment between its call and its return
and at what the clock reads then. -/
theorem Interleaved.linearizes_methods (hreach : (interleavedMachine Q Value Tid).Reachable s) :
    (cacheObject Q Value fun _ _ => True).Linearizes s.history := by
  have hany : (interleavedMachine Q Value Tid).ReachableBy (Interleaved.Permits fun _ _ => True) s := by
    refine hreach.mono fun s action _ => ?_
    cases action <;> simp [Interleaved.Permits]
  exact ⟨_, _, (Interleaved.linked_of_reachableBy hany).produces⟩

/-- A `get` called before the `put` has returned finds its value, four milliseconds later. -/
theorem linearizes_overlapping_calls : ∃ s,
    (interleavedMachine (PriorityQueue.sorted (@HeapEntry.NotAfter Nat)) String Nat).Reachable s ∧
      s.history = [.invoke 0 (.put 1 "a" 5) 0, .invoke 1 (.get 1) 0,
        .respond 1 (.found (some "a")) 4000000, .respond 0 .done 4000000] ∧
      (cacheObject (PriorityQueue.sorted (@HeapEntry.NotAfter Nat)) String fun _ _ => True).Linearizes
        s.history := by
  obtain ⟨s, hreach, hcheck⟩ := transition.Machine.exists_reachable_of_run
    (M := interleavedMachine (PriorityQueue.sorted (@HeapEntry.NotAfter Nat)) String Nat)
    (s := {}) ⟨0, rfl⟩
    (.handlerStep :: .call 0 (.put 1 "a" 5) :: .handlerStep :: .handlerStep :: .call 1 (.get 1) ::
      List.replicate 7 (.callerStep 0) ++ .tick 4000000 :: List.replicate 6 (.callerStep 1) ++
      [.callerStep 0])
    (fun s => decide (s.history = [.invoke 0 (.put 1 "a" 5) 0, .invoke 1 (.get 1) 0,
      .respond 1 (.found (some "a")) 4000000, .respond 0 .done 4000000])) (by decide +kernel)
  exact ⟨s, hreach, by simpa using hcheck, Interleaved.linearizes_methods hreach⟩

end spdlogger.expiring_cache
