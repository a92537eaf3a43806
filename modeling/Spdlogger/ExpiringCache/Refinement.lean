import Spdlogger.ExpiringCache.History

namespace spdlogger.expiring_cache

variable {Key Value : Type} [DecidableEq Key] {Q : ExpirationQueue Key}

/-- The part of a mapping that `get` can see. -/
def MapEntry.content {Value : Type} (entry : MapEntry Value) : Value × Int :=
  (entry.value, entry.expiration)

/-- The cache and the reference agree on every mapping whose deadline lies
after `now`. Mappings already past their deadline may be present in the one and
absent from the other, depending on which sweeps have run. -/
structure Refines (cache : TExpiringCache Q Value) (reference : DeadlineMap Key Value)
    (now : Int) : Prop where
  stopped : cache.isStopping = reference.stopped
  matched : cache.Matched
  visible : cache.isStopping = false → ∀ key,
    ((cache.lookupMap.lookup key).map MapEntry.content).filter (fun entry => now < entry.2) =
      (reference.stored key).filter fun entry => now < entry.2

/-- What agrees on all that is not expired now agrees on it later. -/
theorem filter_later {α : Type} {deadline : α → Int} {now later : Int} (hle : now ≤ later)
    {first second : Option α}
    (heq : first.filter (fun x => now < deadline x) = second.filter fun x => now < deadline x) :
    first.filter (fun x => later < deadline x) = second.filter fun x => later < deadline x := by
  have hrefilter (entry : Option α) : entry.filter (fun x => later < deadline x) =
      (entry.filter fun x => now < deadline x).filter fun x => later < deadline x := by
    rw [Option.filter_filter]
    congr 1
    funext x
    by_cases hlater : later < deadline x
    · simp [hlater, lt_of_le_of_lt hle hlater]
    · simp [hlater]
  rw [hrefilter first, heq, ← hrefilter second]

/-- The refinement survives the passing of time. -/
theorem Refines.advance {cache : TExpiringCache Q Value} {reference : DeadlineMap Key Value}
    {now later : Int} (h : Refines cache reference now) (hle : now ≤ later) :
    Refines cache reference later :=
  ⟨h.stopped, h.matched, fun hrunning key => filter_later hle (h.visible hrunning key)⟩

/-- A put without overflow keeps the refinement. -/
theorem Refines.put {cache : TExpiringCache Q Value} {reference : DeadlineMap Key Value}
    {now : Int} (h : Refines cache reference now)
    (hroom : cache.currentGeneration.toNat + 1 < 2 ^ 64) (key : Key) (value : Value) (ttl : Int)
    (hexact : expirationAt now ttl = now + ttl * 1000000) :
    Refines (cache.put now key value ttl).1 (reference.after ⟨now, .put key value ttl⟩) now := by
  refine ⟨?_, h.matched.put hroom now key value ttl, ?_⟩
  · unfold TExpiringCache.put
    split <;> exact h.stopped
  · intro hrunning other
    have hcache : cache.isStopping = false := by
      unfold TExpiringCache.put at hrunning
      split at hrunning
      · exact hrunning
      · simpa using hrunning
    simp only [TExpiringCache.put, hcache, Bool.false_eq_true, ↓reduceIte, DeadlineMap.after]
    by_cases hkey : other = key
    · subst hkey
      simp [MapEntry.content, hexact]
    · rw [Finmap.lookup_insert_of_ne _ hkey, Function.update_of_ne hkey]
      exact h.visible hcache other

/-- A remove keeps the refinement. -/
theorem Refines.remove {cache : TExpiringCache Q Value} {reference : DeadlineMap Key Value}
    {now : Int} (h : Refines cache reference now) (key : Key) :
    Refines (cache.remove key).1 (reference.after ⟨now, .remove key⟩) now := by
  refine ⟨?_, h.matched.remove key, ?_⟩
  · unfold TExpiringCache.remove
    split <;> exact h.stopped
  · intro hrunning other
    have hcache : cache.isStopping = false := by
      unfold TExpiringCache.remove at hrunning
      split at hrunning
      · exact hrunning
      · simpa using hrunning
    simp only [TExpiringCache.remove, hcache, Bool.false_eq_true, ↓reduceIte, DeadlineMap.after]
    by_cases hkey : other = key
    · subst hkey
      simp
    · rw [Finmap.lookup_erase_ne hkey, Function.update_of_ne hkey]
      exact h.visible hcache other

/-- A sweep only takes what no later reading can see. -/
theorem Refines.sweep {cache : TExpiringCache Q Value} {reference : DeadlineMap Key Value}
    {now : Int} (h : Refines cache reference now) : Refines (cache.sweep now) reference now := by
  refine ⟨h.stopped, h.matched.sweep now, ?_⟩
  intro hrunning key
  rw [h.matched.lookup_sweep now key, ← h.visible hrunning key]
  cases cache.lookupMap.lookup key with
  | none => rfl
  | some mapped => by_cases hfuture : now < mapped.expiration <;>
      simp [Option.filter, MapEntry.content, hfuture]

/-- One critical section, executed no earlier than the reading the states agree
at, keeps the cache and the reference in agreement. -/
theorem Refines.after {cache : TExpiringCache Q Value} {reference : DeadlineMap Key Value}
    {now : Int} (h : Refines cache reference now) (event : TimedCall Key Value)
    (hroom : event.isPut = true → cache.currentGeneration.toNat + 1 < 2 ^ 64)
    (hclock : now ≤ event.reading) (hexact : event.Exact) :
    Refines (cache.after event) (reference.after event) event.reading := by
  have hnow := h.advance hclock
  obtain ⟨reading, call⟩ := event
  cases call with
  | put key value ttl => exact hnow.put (hroom rfl) key value ttl hexact
  | get key => exact hnow
  | remove key => exact hnow.remove key
  | size => exact hnow
  | stop =>
    exact ⟨rfl, hnow.matched.setStopping, fun hrunning => by cases hrunning⟩
  | sweep =>
    by_cases hstopping : cache.isStopping
    · simpa only [TExpiringCache.after, DeadlineMap.after, hstopping, ↓reduceIte] using hnow
    · simpa only [TExpiringCache.after, DeadlineMap.after, hstopping, Bool.false_eq_true,
        ↓reduceIte] using hnow.sweep

/-- Each put advances the generation counter by one and nothing else moves it. -/
theorem TExpiringCache.generation_after (cache : TExpiringCache Q Value)
    (event : TimedCall Key Value) :
    (cache.after event).currentGeneration.toNat ≤
      cache.currentGeneration.toNat + if event.isPut then 1 else 0 := by
  obtain ⟨reading, call⟩ := event
  cases call with
  | put key value ttl =>
    by_cases hstopping : cache.isStopping
    · simp [TExpiringCache.after, TExpiringCache.put, hstopping]
    · simp only [TExpiringCache.after, TExpiringCache.put, hstopping, Bool.false_eq_true,
        ↓reduceIte, TimedCall.isPut, UInt64.toNat_add, UInt64.toNat_one]
      exact Nat.mod_le _ _
  | remove key =>
    by_cases hstopping : cache.isStopping <;>
      simp [TExpiringCache.after, TExpiringCache.remove, hstopping]
  | sweep =>
    by_cases hstopping : cache.isStopping <;>
      simp [TExpiringCache.after, TExpiringCache.sweep, hstopping]
  | get | size | stop => simp [TExpiringCache.after, TExpiringCache.setStopping]

/-- The counter is at most the number of puts. -/
theorem TExpiringCache.generation_afterAll (history : List (TimedCall Key Value)) :
    (TExpiringCache.afterAll Q history).currentGeneration.toNat ≤
      history.countP TimedCall.isPut := by
  induction history using List.reverseRecOn with
  | nil => simp [TExpiringCache.afterAll]
  | append_singleton history event ih =>
    rw [TExpiringCache.afterAll_append, List.countP_append]
    have hevent := (TExpiringCache.afterAll Q history).generation_after event
    simp only [List.countP_singleton]
    omega

/-- Along every history with a non-decreasing clock the cache agrees with the
reference at every reading from the last call on. -/
theorem refines_afterAll (history : List (TimedCall Key Value))
    (hclock : history.Pairwise fun earlier later => earlier.reading ≤ later.reading)
    (hexact : ∀ event ∈ history, event.Exact)
    (hputs : history.countP TimedCall.isPut < 2 ^ 64) (now : Int)
    (hnow : ∀ event ∈ history, event.reading ≤ now) :
    Refines (TExpiringCache.afterAll Q history) (DeadlineMap.afterAll history) now := by
  induction history using List.reverseRecOn generalizing now with
  | nil => exact ⟨rfl, TExpiringCache.matched_empty, fun _ _ => rfl⟩
  | append_singleton history event ih =>
    simp only [List.pairwise_append, List.pairwise_singleton, List.mem_singleton, forall_eq,
      true_and] at hclock
    simp only [List.mem_append, List.mem_singleton, or_imp, forall_and, forall_eq] at hexact hnow
    have hcount := @List.countP_append _ TimedCall.isPut history [event]
    have hgeneration := TExpiringCache.generation_afterAll (Q := Q) history
    have hbefore := ih hclock.1 hexact.1 (by omega) event.reading hclock.2
    rw [TExpiringCache.afterAll_append, DeadlineMap.afterAll_append]
    refine (hbefore.after event (fun hput => ?_) le_rfl hexact.2).advance hnow.2
    rw [List.countP_singleton, if_pos hput] at hcount
    omega

/-- Under the refinement the two answer a get alike. -/
theorem Refines.get_eq {cache : TExpiringCache Q Value} {reference : DeadlineMap Key Value}
    {now : Int} (h : Refines cache reference now) (key : Key) :
    cache.get now key = reference.get now key := by
  unfold TExpiringCache.get DeadlineMap.get
  cases hstopped : reference.stopped with
  | true => simp [h.stopped, hstopped]
  | false =>
    have hrunning : cache.isStopping = false := h.stopped.trans hstopped
    rw [← h.visible hrunning key]
    cases cache.lookupMap.lookup key with
    | none => simp [hrunning]
    | some mapped =>
      by_cases hfuture : now < mapped.expiration
      · simp [hrunning, Option.filter, MapEntry.content, hfuture]
      · simp [hrunning, Option.filter, MapEntry.content, hfuture, not_lt.mp hfuture]

/-- Sweeps leave the reference alone. -/
theorem DeadlineMap.afterAll_filter_sweeps (history : List (TimedCall Key Value)) :
    DeadlineMap.afterAll (history.filter fun event => !event.isSweep) =
      DeadlineMap.afterAll history := by
  induction history using List.reverseRecOn with
  | nil => rfl
  | append_singleton history event ih =>
    rw [List.filter_append, DeadlineMap.afterAll_append, ← ih]
    obtain ⟨reading, call⟩ := event
    cases call <;> simp [TimedCall.isSweep, DeadlineMap.afterAll, DeadlineMap.after]

/-- After every history of critical sections, `get` at a later reading returns a value exactly
when no stop has taken effect and the last write to the key was a put of that value whose
deadline still lies ahead. Taking the handler's sweeps out of the history changes no result. -/
theorem TExpiringCache.get_refines_deadlines (history : List (TimedCall Key Value))
    (hclock : history.Pairwise fun earlier later => earlier.reading ≤ later.reading)
    (hexact : ∀ event ∈ history, event.Exact)
    (hputs : history.countP TimedCall.isPut < 2 ^ 64) (now : Int)
    (hnow : ∀ event ∈ history, event.reading ≤ now) (key : Key) :
    (∀ value, (TExpiringCache.afterAll Q history).get now key = some value ↔
      (∀ event ∈ history, event.call ≠ .stop) ∧
        ∃ reading ttl, lastWrite key history = some ⟨reading, .put key value ttl⟩ ∧
          now < reading + ttl * 1000000) ∧
      (TExpiringCache.afterAll Q (history.filter fun event => !event.isSweep)).get now key =
        (TExpiringCache.afterAll Q history).get now key := by
  have hrefines := refines_afterAll (Q := Q) history hclock hexact hputs now hnow
  constructor
  · intro value
    rw [hrefines.get_eq, DeadlineMap.get_afterAll_iff]
  · have hsublist : (history.filter fun event => !event.isSweep).Sublist history :=
      List.filter_sublist
    have hunswept := refines_afterAll (Q := Q) (history.filter fun event => !event.isSweep)
      (hclock.sublist hsublist) (fun event hevent => hexact event (hsublist.subset hevent))
      (lt_of_le_of_lt hsublist.countP_le hputs) now
      (fun event hevent => hnow event (hsublist.subset hevent))
    rw [hunswept.get_eq, hrefines.get_eq, DeadlineMap.afterAll_filter_sweeps]

/-- An overwritten mapping outlives the sweep that pops its predecessor's heap entry. -/
theorem get_after_overwrite_and_sweep :
    (TExpiringCache.afterAll (PriorityQueue.sorted (@HeapEntry.NotAfter Nat))
      [⟨0, .put 1 "old" 1⟩, ⟨10, .put 1 "new" 5⟩, ⟨2000000, .sweep⟩]).get 3000000 1 =
      some "new" :=
  ((TExpiringCache.get_refines_deadlines
    [⟨0, .put 1 "old" 1⟩, ⟨10, .put 1 "new" 5⟩, ⟨2000000, .sweep⟩]
    (by decide) (by simp [TimedCall.Exact]; decide) (by decide) 3000000 (by decide) 1).1 "new").mpr
    ⟨by decide, 10, 5, by decide, by decide⟩

end spdlogger.expiring_cache
