import Spdlogger.ExpiringCache.Refinement

namespace spdlogger.expiring_cache

variable {Key Value : Type} [DecidableEq Key] {Q : ExpirationQueue Key}

/-- The heap entry was pushed by the put that the map still holds for its key. -/
def TExpiringCache.Backs (cache : TExpiringCache Q Value) (entry : HeapEntry Key) : Prop :=
  ∃ mapped, cache.lookupMap.lookup entry.key = some mapped ∧
    mapped.toExpirationMetadata = entry.toExpirationMetadata

/-- The heap entry's key is absent from the map, or mapped by a later put. -/
def TExpiringCache.Stale (cache : TExpiringCache Q Value) (entry : HeapEntry Key) : Prop :=
  ∀ mapped, cache.lookupMap.lookup entry.key = some mapped → entry.generation < mapped.generation

/-- How the heap represents the map: with one entry for each mapping, and
nothing besides these but entries left behind by earlier puts. -/
structure TExpiringCache.Represented (cache : TExpiringCache Q Value) : Prop where
  distinct : ((Q.items cache.expirationQueue).map fun entry => entry.generation).Nodup
  bounded : ∀ entry ∈ Q.items cache.expirationQueue, entry.generation ≤ cache.currentGeneration
  backed : ∀ key mapped, cache.lookupMap.lookup key = some mapped →
    (Q.items cache.expirationQueue).count ⟨mapped.toExpirationMetadata, key⟩ = 1
  stale : ∀ entry ∈ Q.items cache.expirationQueue, ¬ cache.Backs entry → cache.Stale entry

/-- One critical section keeps the map and the heap in agreement while the
generation counter has room for a put. -/
theorem TExpiringCache.Matched.after {cache : TExpiringCache Q Value} (hmatched : cache.Matched)
    (event : TimedCall Key Value)
    (hroom : event.isPut = true → cache.currentGeneration.toNat + 1 < 2 ^ 64) :
    (cache.after event).Matched := by
  obtain ⟨reading, call⟩ := event
  cases call with
  | put key value ttl => exact hmatched.put (hroom rfl) reading key value ttl
  | remove key => exact hmatched.remove key
  | get | size => exact hmatched
  | stop => exact hmatched.setStopping
  | sweep =>
    by_cases hstopping : cache.isStopping
    · simpa only [TExpiringCache.after, hstopping, ↓reduceIte] using hmatched
    · simpa only [TExpiringCache.after, hstopping, Bool.false_eq_true, ↓reduceIte] using
        hmatched.sweep reading

/-- Below 2^64 puts, every history leaves the mappings matched by their heap entries. -/
theorem TExpiringCache.matched_afterAll (history : List (TimedCall Key Value))
    (hputs : history.countP TimedCall.isPut < 2 ^ 64) :
    (TExpiringCache.afterAll Q history).Matched := by
  induction history using List.reverseRecOn with
  | nil => exact TExpiringCache.matched_empty
  | append_singleton history event ih =>
    have hcount := @List.countP_append _ TimedCall.isPut history [event]
    have hgeneration := TExpiringCache.generation_afterAll (Q := Q) history
    rw [TExpiringCache.afterAll_append]
    refine (ih (by omega)).after event fun hput => ?_
    rw [List.countP_singleton, if_pos hput] at hcount
    omega

/-- A heap entry as old as its key's mapping is the one backing it, so every
other entry of that key is strictly older. -/
theorem TExpiringCache.Matched.represented {cache : TExpiringCache Q Value}
    (hmatched : cache.Matched) : cache.Represented where
  distinct := hmatched.distinct
  bounded := hmatched.bounded
  backed key mapped hmapped := by
    have hlive := hmatched.live key mapped hmapped
    exact Multiset.count_eq_one_of_mem hmatched.distinct.of_map hlive
  stale entry hentry hbacks mapped hmapped := by
    have hle := hmatched.newest entry hentry mapped hmapped
    refine UInt64.lt_of_le_of_ne hle fun hgeneration => hbacks ⟨mapped, hmapped, ?_⟩
    have hlive := hmatched.live entry.key mapped hmapped
    have heq := hmatched.eq_of_generation hlive hentry hgeneration.symm
    rw [← heq]

/-- After every history of critical sections with fewer than 2^64 puts, the heap represents the
map. Hence no mapping can get out of the handler's reach: the first sweep past its deadline
takes it. -/
theorem TExpiringCache.represented_afterAll (history : List (TimedCall Key Value))
    (hputs : history.countP TimedCall.isPut < 2 ^ 64) :
    (TExpiringCache.afterAll Q history).Represented ∧
      ∀ key mapped now, (TExpiringCache.afterAll Q history).lookupMap.lookup key = some mapped →
        mapped.expiration ≤ now →
        ((TExpiringCache.afterAll Q history).sweep now).lookupMap.lookup key = none := by
  have hmatched := TExpiringCache.matched_afterAll (Q := Q) history hputs
  refine ⟨hmatched.represented, fun key mapped now hmapped hdue => ?_⟩
  rw [hmatched.lookup_sweep now key, hmapped]
  simp [Option.filter, hdue]

/-- After an overwrite, a removal and a sweep the surviving mapping is backed
once, and the removed key's heap entry is the stale one left. -/
theorem represented_after_overwrite_and_remove :
    (TExpiringCache.afterAll (PriorityQueue.sorted (@HeapEntry.NotAfter Nat))
      [⟨0, .put 1 "old" 1⟩, ⟨10, .put 1 "new" 5⟩, ⟨20, .put 2 "gone" 9⟩, ⟨30, .remove 2⟩,
        ⟨2000000, .sweep⟩]).Represented :=
  (TExpiringCache.represented_afterAll _ (by decide)).1

end spdlogger.expiring_cache
