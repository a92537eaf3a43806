import Spdlogger.ExpiringCache.Interleaved

namespace spdlogger.expiring_cache

open linearizable (Status Object)

variable {Key Value Tid : Type} [DecidableEq Key] [DecidableEq Tid] {Q : ExpirationQueue Key}

/-- A method as a whole, at the clock reading `now`. -/
def TExpiringCache.call (self : TExpiringCache Q Value) (now : Int) :
    Op Key Value → TExpiringCache Q Value × Ret Value
  | .put key value ttl => ((self.put now key value ttl).1, .done)
  | .get key => (self, .found (self.get now key))
  | .remove key => ((self.remove key).1, .removed (self.remove key).2.1)
  | .size => (self, .size self.size)
  | .stop => (self.setStopping, .done)

/-- The cache, with what the clock reads. -/
structure TimedCache (Q : ExpirationQueue Key) (Value : Type) where
  cache : TExpiringCache Q Value
  clock : Int

/-- The cache whose methods take place at one moment each. In between the clock goes on
and the handler sweeps. Of the puts, those that `admits` tells occur. -/
def cacheObject (Q : ExpirationQueue Key) (Value : Type) (admits : TimedCache Q Value → Int → Prop) :
    Object (TimedCache Q Value) (Op Key Value) (Ret Value) Int where
  stamp value := value.clock
  init value := value.cache = {}
  apply value op next ret := next.clock = value.clock ∧
    value.cache.call value.clock op = (next.cache, ret) ∧
    ∀ key written ttl, op = .put key written ttl → value.cache.isStopping = false → admits value ttl
  evolve value next := next.cache = value.cache ∧ value.clock ≤ next.clock ∨
    next.cache = value.cache.sweep value.clock ∧ next.clock = value.clock

/-- How far the call of a thread has come: it takes effect where `put` and `get` read the
clock, where `remove` erases, where `size` counts and where `stop` sets the flag, or at the
test of the flag. -/
def CallerPosition.status : CallerPosition Key Value → Status (Op Key Value) (Ret Value)
  | .idle => .idle
  | .acquiring op | .testing op => .pending op
  | .reading key value ttl => .pending (.put key value ttl)
  | .finding key | .comparing key _ => .pending (.get key)
  | .erasing key => .pending (.remove key)
  | .counting => .pending .size
  | .setting => .pending .stop
  | .topping _ ret | .leaving _ ret | .returned ret => .done ret
  | .assigning _ _ _ | .pushing _ _ | .releasing | .notifying | .testingJoinable | .joining
  | .threw => .done .done

/-- What a writer still does to the cache after its moment. -/
def CallerPosition.complete (cache : TExpiringCache Q Value) :
    CallerPosition Key Value → TExpiringCache Q Value
  | .assigning key value expiration =>
    let metadata : ExpirationMetadata := ⟨expiration, cache.currentGeneration + 1⟩
    { cache with
      currentGeneration := metadata.generation
      lookupMap := cache.lookupMap.insert key ⟨metadata, value⟩
      expirationQueue := Q.push cache.expirationQueue ⟨metadata, key⟩ }
  | .pushing key metadata =>
    { cache with expirationQueue := Q.push cache.expirationQueue ⟨metadata, key⟩ }
  | _ => cache

/-- The sweep takes place where the handler reads the clock. -/
def HandlerPosition.complete (cache : TExpiringCache Q Value) :
    HandlerPosition → TExpiringCache Q Value
  | .sweeping now => cache.sweep now
  | _ => cache

@[simp] theorem HandlerPosition.complete_notified (cache : TExpiringCache Q Value)
    (position : HandlerPosition) : position.notified.complete cache = position.complete cache := by
  cases position <;> rfl

/-- The cache as it is once the writer is through. -/
def Interleaved.completed (s : Interleaved Q Value Tid) : TExpiringCache Q Value :=
  match s.dataMutex.writer with
  | none => s.cache
  | some none => s.handler.complete s.cache
  | some (some thread) => (s.callers thread).complete s.cache

/-- What a thread knows of the cache under its lock. -/
def CallerPosition.Fits (cache : TExpiringCache Q Value) : CallerPosition Key Value → Prop
  | .reading _ _ _ | .finding _ | .erasing _ | .counting => cache.isStopping = false
  | .comparing key foundElement =>
    cache.isStopping = false ∧ cache.lookupMap.lookup key = some foundElement
  | _ => True

/-- A thread without the lock knows nothing of the cache. -/
theorem CallerPosition.fits_of_free {position : CallerPosition Key Value}
    (hfree : position.mode = .free) (cache : TExpiringCache Q Value) : position.Fits cache := by
  cases position with
  | reading | finding | erasing | counting | comparing => cases hfree
  | _ => trivial

/-- Who holds `dataMutex_`, and how. -/
def Interleaved.mode (s : Interleaved Q Value Tid) : Option Tid → SharedMutex.Mode
  | none => s.handler.mode
  | some thread => (s.callers thread).mode

omit [DecidableEq Key] in
/-- A move of one caller changes the mode of that caller only. -/
theorem Interleaved.mode_update {s next : Interleaved Q Value Tid} {thread : Tid}
    {position : CallerPosition Key Value}
    (hcallers : next.callers = Function.update s.callers thread position)
    (hhandler : next.handler.mode = s.handler.mode) :
    next.mode = Function.update s.mode (some thread) position.mode := by
  funext owner
  cases owner with
  | none => exact hhandler
  | some other =>
    by_cases hother : other = thread
    · subst hother
      simp [Interleaved.mode, hcallers]
    · rw [Function.update_of_ne (by simpa using hother)]
      simp [Interleaved.mode, hcallers, Function.update_of_ne hother]

omit [DecidableEq Key] in
/-- A move of one caller changes the status of that caller only. -/
theorem status_update (callers : Tid → CallerPosition Key Value) (thread : Tid)
    (position : CallerPosition Key Value) :
    (fun other => (Function.update callers thread position other).status) =
      Function.update (fun other => (callers other).status) thread position.status := by
  funext other
  by_cases hother : other = thread
  · subst hother
    simp
  · simp [Function.update_of_ne hother]

variable {admits : TimedCache Q Value → Int → Prop}

/-- The cache between its steps is the cache of the object, and the threads agree on who
is inside. -/
structure Interleaved.Linked (admits : TimedCache Q Value → Int → Prop)
    (s : Interleaved Q Value Tid) : Prop where
  held : SharedMutex.HeldBy s.mode s.dataMutex
  fits : ∀ thread, (s.callers thread).Fits s.cache
  produces : (cacheObject Q Value admits).Produces ⟨s.completed, s.clock⟩
    (fun thread => (s.callers thread).status) s.history

section linked

variable {s : Interleaved Q Value Tid} {thread : Tid}

/-- While a caller writes, it is the one to complete the cache. -/
theorem Interleaved.Linked.completed_of_caller (h : s.Linked admits)
    (hmode : (s.callers thread).mode = .exclusive) :
    s.completed = (s.callers thread).complete s.cache := by
  have hwriter := (h.held.writer (some thread)).mp hmode
  simp only [Interleaved.completed, hwriter]

/-- While the handler sweeps, it is the one to complete the cache. -/
theorem Interleaved.Linked.completed_of_handler (h : s.Linked admits)
    (hmode : s.handler.mode = .exclusive) : s.completed = s.handler.complete s.cache := by
  have hwriter := (h.held.writer none).mp hmode
  simp only [Interleaved.completed, hwriter]

omit [DecidableEq Tid] in
/-- Without a writer the cache is complete. -/
theorem Interleaved.completed_of_none (hwriter : s.dataMutex.writer = none) :
    s.completed = s.cache := by
  simp only [Interleaved.completed, hwriter]

/-- The others are outside while a thread writes. -/
theorem Interleaved.Linked.fits_of_exclusive (h : s.Linked admits) {owner : Option Tid}
    (hmode : s.mode owner = .exclusive) {other : Tid} (hother : some other ≠ owner)
    (cache : TExpiringCache Q Value) : (s.callers other).Fits cache :=
  CallerPosition.fits_of_free (h.held.free_of_exclusive hmode hother) cache

/-- A thread that only looks at the cache, or only has the lock to leave. -/
theorem Interleaved.Linked.shared (h : s.Linked admits) (hmode : (s.callers thread).mode = .shared)
    {position : CallerPosition Key Value} (hposition : position.mode = .shared)
    (hfits : position.Fits s.cache)
    (hstatus : position.status = (s.callers thread).status ∨
      ∃ op ret, (s.callers thread).status = .pending op ∧ position.status = .done ret ∧
        (∀ key written ttl, op ≠ .put key written ttl) ∧
        s.cache.call s.clock op = (s.cache, ret)) : (s.setCaller thread position).Linked admits := by
  have hwriter := h.held.writer_eq_none (show s.mode (some thread) = .shared from hmode)
  have hcompleted : (s.setCaller thread position).completed = s.completed :=
    (Interleaved.completed_of_none (s := s.setCaller thread position) hwriter).trans
      (Interleaved.completed_of_none hwriter).symm
  refine ⟨?_, fun other => ?_, ?_⟩
  · have hafter : (s.setCaller thread position).mode =
        Function.update s.mode (some thread) position.mode := Interleaved.mode_update rfl rfl
    rw [hafter]
    exact h.held.within (hposition.trans hmode.symm)
  · by_cases hother : other = thread
    · subst hother
      simpa [Interleaved.setCaller] using hfits
    · simpa [Interleaved.setCaller, Function.update_of_ne hother] using h.fits other
  · have hproduces := h.produces
    rw [hcompleted]
    show (cacheObject Q Value admits).Produces _
      (fun other => (Function.update s.callers thread position other).status) s.history
    rw [status_update]
    obtain hsame | ⟨op, ret, hpending, hdone, hlook, happly⟩ := hstatus
    · rw [hsame, Function.update_eq_self (f := fun other => (s.callers other).status)]
      exact hproduces
    · rw [hdone]
      refine hproduces.commit thread hpending ⟨rfl, ?_, ?_⟩
      · rw [Interleaved.completed_of_none hwriter]
        exact happly
      · intro key written ttl hput
        exact absurd hput (hlook key written ttl)

/-- A thread that writes, or only has the lock to leave. -/
theorem Interleaved.Linked.exclusive (h : s.Linked admits) {next : Interleaved Q Value Tid}
    (position : CallerPosition Key Value) (hmode : (s.callers thread).mode = .exclusive)
    (hposition : position.mode = .exclusive) (hfits : position.Fits next.cache)
    (hcallers : next.callers = Function.update s.callers thread position)
    (hhandler : next.handler.mode = s.handler.mode) (hmutex : next.dataMutex = s.dataMutex)
    (hclock : next.clock = s.clock) (hhistory : next.history = s.history)
    (hstatus : position.status = (s.callers thread).status ∧
        position.complete next.cache = (s.callers thread).complete s.cache ∨
      ∃ op ret, (s.callers thread).status = .pending op ∧ position.status = .done ret ∧
        (s.callers thread).complete s.cache = s.cache ∧
        s.cache.call s.clock op = (position.complete next.cache, ret) ∧
        ∀ key written ttl, op = .put key written ttl → s.cache.isStopping = false →
          admits ⟨s.cache, s.clock⟩ ttl) : next.Linked admits := by
  have hwriter : s.dataMutex.writer = some (some thread) := (h.held.writer (some thread)).mp hmode
  have hcompleted : next.completed = position.complete next.cache := by
    simp [Interleaved.completed, hmutex, hwriter, hcallers]
  refine ⟨?_, fun other => ?_, ?_⟩
  · have hafter : next.mode = Function.update s.mode (some thread) position.mode :=
      Interleaved.mode_update hcallers hhandler
    rw [hmutex]
    rw [hafter]
    exact h.held.within (hposition.trans hmode.symm)
  · rw [hcallers]
    by_cases hother : other = thread
    · subst hother
      simpa using hfits
    · rw [Function.update_of_ne hother]
      exact h.fits_of_exclusive (show s.mode (some thread) = .exclusive from hmode)
        (by simpa using hother) next.cache
  · have hproduces := h.produces
    rw [h.completed_of_caller hmode] at hproduces
    rw [hcompleted, hclock, hhistory, hcallers, status_update]
    obtain ⟨hsame, hcache⟩ | ⟨op, ret, hpending, hdone, hbefore, happly, hadmits⟩ := hstatus
    · rw [hsame, hcache, Function.update_eq_self (f := fun other => (s.callers other).status)]
      exact hproduces
    · rw [hdone]
      rw [hbefore] at hproduces
      exact hproduces.commit thread hpending ⟨rfl, happly, hadmits⟩

/-- A thread outside the lock. -/
theorem Interleaved.Linked.outside (h : s.Linked admits) {next : Interleaved Q Value Tid}
    (position : CallerPosition Key Value) (hmode : (s.callers thread).mode = .free)
    (hposition : position.mode = .free)
    (hcallers : next.callers = Function.update s.callers thread position)
    (hhandler : next.handler = s.handler ∨ next.handler = s.handler.notified)
    (hmutex : next.dataMutex = s.dataMutex) (hcache : next.cache = s.cache)
    (hproduces : (cacheObject Q Value admits).Produces ⟨s.completed, next.clock⟩
      (Function.update (fun other => (s.callers other).status) thread position.status) next.history) :
    next.Linked admits := by
  have hsame : next.handler.mode = s.handler.mode := by
    obtain hsame | hsame := hhandler <;> simp [hsame]
  have hcompleted : next.completed = s.completed := by
    have hwrites : s.dataMutex.writer ≠ some (some thread) := by
      intro hwriter
      have hexclusive := (h.held.writer (some thread)).mpr hwriter
      rw [show s.mode (some thread) = .free from hmode] at hexclusive
      cases hexclusive
    unfold Interleaved.completed
    rw [hmutex, hcache, hcallers]
    cases hwriter : s.dataMutex.writer with
    | none => rfl
    | some owner =>
      cases owner with
      | none => obtain hsame | hsame := hhandler <;> simp [hsame]
      | some other =>
        have hother : other ≠ thread := by
          rintro rfl
          exact hwrites hwriter
        simp [Function.update_of_ne hother]
  refine ⟨?_, fun other => ?_, ?_⟩
  · have hafter : next.mode = Function.update s.mode (some thread) position.mode :=
      Interleaved.mode_update hcallers hsame
    rw [hmutex]
    rw [hafter]
    exact h.held.within (hposition.trans hmode.symm)
  · rw [hcallers, hcache]
    by_cases hother : other = thread
    · subst hother
      simpa using CallerPosition.fits_of_free hposition s.cache
    · rw [Function.update_of_ne hother]
      exact h.fits other
  · rw [hcompleted, hcallers, status_update]
    exact hproduces

end linked

end spdlogger.expiring_cache
