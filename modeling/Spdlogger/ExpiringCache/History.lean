import Spdlogger.ExpiringCache.Matched

namespace spdlogger.expiring_cache

/-- The critical sections under `dataMutex_`: the public operations and the
handler's turn after `wait_until` returns. -/
inductive Call (Key Value : Type) where
  | put (key : Key) (value : Value) (ttl : Int)
  | get (key : Key)
  | remove (key : Key)
  | size
  | stop
  | sweep
  deriving DecidableEq, Repr

/-- A critical section together with the clock reading it is executed at. -/
structure TimedCall (Key Value : Type) where
  reading : Int
  call : Call Key Value
  deriving DecidableEq, Repr

variable {Key Value : Type} [DecidableEq Key] {Q : ExpirationQueue Key}

/-- The critical section of a `put`. -/
def TimedCall.isPut (event : TimedCall Key Value) : Bool :=
  match event.call with
  | .put .. => true
  | _ => false

/-- A sweep of the handler. -/
def TimedCall.isSweep (event : TimedCall Key Value) : Bool :=
  match event.call with
  | .sweep => true
  | _ => false

/-- The call is a put or a remove on the key. -/
def TimedCall.writes (key : Key) (event : TimedCall Key Value) : Bool :=
  match event.call with
  | .put target _ _ => target = key
  | .remove target => target = key
  | _ => false

/-- The expiration a put computes does not leave the 64-bit range on the way. -/
def TimedCall.Exact (event : TimedCall Key Value) : Prop :=
  match event.call with
  | .put _ _ ttl => expirationAt event.reading ttl = event.reading + ttl * 1000000
  | _ => True

/-- The effect of one critical section on the cache. The handler leaves its
loop instead of sweeping once the cache is stopping. -/
def TExpiringCache.after (self : TExpiringCache Q Value) (event : TimedCall Key Value) :
    TExpiringCache Q Value :=
  match event.call with
  | .put key value ttl => (self.put event.reading key value ttl).1
  | .get _ => self
  | .remove key => (self.remove key).1
  | .size => self
  | .stop => self.setStopping
  | .sweep => if self.isStopping then self else self.sweep event.reading

/-- The cache after a history of critical sections, from its construction on. -/
def TExpiringCache.afterAll (Q : ExpirationQueue Key) (history : List (TimedCall Key Value)) :
    TExpiringCache Q Value :=
  history.foldl TExpiringCache.after {}

/-- The most recent put or remove on a key. -/
def lastWrite (key : Key) (history : List (TimedCall Key Value)) : Option (TimedCall Key Value) :=
  (history.filter fun event => event.writes key).getLast?

/-- A write to the key is the last one. -/
theorem lastWrite_append_of_writes {key : Key} {event : TimedCall Key Value}
    (hwrites : event.writes key = true) (history : List (TimedCall Key Value)) :
    lastWrite key (history ++ [event]) = some event := by
  simp [lastWrite, hwrites]

/-- Any other call leaves the last write. -/
theorem lastWrite_append_of_not_writes {key : Key} {event : TimedCall Key Value}
    (hwrites : event.writes key = false) (history : List (TimedCall Key Value)) :
    lastWrite key (history ++ [event]) = lastWrite key history := by
  simp [lastWrite, hwrites]

/-- A plain map with deadlines, the reference the cache is compared with. -/
structure DeadlineMap (Key Value : Type) where
  stored : Key → Option (Value × Int) := fun _ => none
  stopped : Bool := false

/-- The value the reference holds for a key at a clock reading. -/
def DeadlineMap.get (self : DeadlineMap Key Value) (now : Int) (key : Key) : Option Value :=
  if self.stopped then none
  else ((self.stored key).filter fun entry => now < entry.2).map Prod.fst

/-- Only puts, removes and the stop concern the reference; nothing is evicted. -/
def DeadlineMap.after (self : DeadlineMap Key Value) (event : TimedCall Key Value) :
    DeadlineMap Key Value :=
  match event.call with
  | .put key value ttl =>
    let entry := (value, event.reading + ttl * 1000000)
    { self with stored := Function.update self.stored key (some entry) }
  | .remove key => { self with stored := Function.update self.stored key none }
  | .stop => { self with stopped := true }
  | _ => self

/-- The map after these calls, from the empty one on. -/
def DeadlineMap.afterAll (history : List (TimedCall Key Value)) : DeadlineMap Key Value :=
  history.foldl DeadlineMap.after {}

theorem DeadlineMap.afterAll_append (history : List (TimedCall Key Value))
    (event : TimedCall Key Value) :
    DeadlineMap.afterAll (history ++ [event]) = (DeadlineMap.afterAll history).after event := by
  simp [DeadlineMap.afterAll]

theorem TExpiringCache.afterAll_append (history : List (TimedCall Key Value))
    (event : TimedCall Key Value) :
    TExpiringCache.afterAll Q (history ++ [event]) =
      (TExpiringCache.afterAll Q history).after event := by
  simp [TExpiringCache.afterAll]

/-- The reference is stopped exactly when a stop occurs in its history. -/
theorem DeadlineMap.stopped_afterAll (history : List (TimedCall Key Value)) :
    (DeadlineMap.afterAll history).stopped = false ↔ ∀ event ∈ history, event.call ≠ .stop := by
  induction history using List.reverseRecOn with
  | nil => simp [DeadlineMap.afterAll]
  | append_singleton history event ih =>
    rw [DeadlineMap.afterAll_append]
    obtain ⟨reading, call⟩ := event
    cases call <;> simp [DeadlineMap.after, ih, or_imp, forall_and]

/-- What the reference stores under a key is decided by the last write to it. -/
theorem DeadlineMap.stored_afterAll (history : List (TimedCall Key Value)) (key : Key) :
    (DeadlineMap.afterAll history).stored key =
      match lastWrite key history with
      | some ⟨reading, .put _ value ttl⟩ => some (value, reading + ttl * 1000000)
      | _ => none := by
  induction history using List.reverseRecOn with
  | nil => rfl
  | append_singleton history event ih =>
    rw [DeadlineMap.afterAll_append]
    obtain ⟨reading, call⟩ := event
    cases call with
    | put target value ttl | remove target =>
      by_cases hkey : target = key
      · subst hkey
        rw [lastWrite_append_of_writes (by simp [TimedCall.writes])]
        exact Function.update_self _ _ _
      · rw [lastWrite_append_of_not_writes (by simpa [TimedCall.writes] using hkey), ← ih]
        exact Function.update_of_ne (Ne.symm hkey) _ _
    | get | size | stop | sweep =>
      rw [lastWrite_append_of_not_writes rfl]
      exact ih

/-- A put wrote to its own key. -/
theorem lastWrite_key {key target : Key} {history : List (TimedCall Key Value)} {reading ttl : Int}
    {value : Value} (hlast : lastWrite key history = some ⟨reading, .put target value ttl⟩) :
    target = key := by
  have hmem := List.mem_of_getLast? hlast
  simpa [TimedCall.writes] using (List.mem_filter.mp hmem).2

/-- The reference returns a value exactly when the last write to the key was a
put of that value whose deadline lies ahead. -/
theorem DeadlineMap.get_afterAll_iff (history : List (TimedCall Key Value)) (now : Int) (key : Key)
    (value : Value) :
    (DeadlineMap.afterAll history).get now key = some value ↔
      (∀ event ∈ history, event.call ≠ .stop) ∧
        ∃ reading ttl, lastWrite key history = some ⟨reading, .put key value ttl⟩ ∧
          now < reading + ttl * 1000000 := by
  rw [← DeadlineMap.stopped_afterAll, DeadlineMap.get, DeadlineMap.stored_afterAll]
  cases hstopped : (DeadlineMap.afterAll history).stopped with
  | true => simp
  | false =>
    simp only [Bool.false_eq_true, ↓reduceIte, true_and]
    constructor
    · intro hget
      obtain ⟨⟨found, deadline⟩, hfilter, hvalue⟩ := Option.map_eq_some_iff.mp hget
      obtain ⟨hstored, hfuture⟩ := Option.filter_eq_some_iff.mp hfilter
      split at hstored
      · rename_i reading target written ttl hlast
        obtain rfl := lastWrite_key hlast
        simp only [Option.some.injEq, Prod.mk.injEq] at hstored
        obtain ⟨rfl, rfl⟩ := hstored
        subst hvalue
        exact ⟨reading, ttl, hlast, by simpa using hfuture⟩
      · cases hstored
    · rintro ⟨reading, ttl, hlast, hfuture⟩
      simp [hlast, Option.filter, hfuture]

end spdlogger.expiring_cache
