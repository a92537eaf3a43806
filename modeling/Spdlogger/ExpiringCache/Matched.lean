import Spdlogger.ExpiringCache.Sweep

namespace spdlogger.expiring_cache

variable {Key Value : Type} [DecidableEq Key] {Q : ExpirationQueue Key}

theorem TExpiringCache.matched_empty : ({} : TExpiringCache Q Value).Matched where
  bounded entry hentry := by simp [Q.items_empty] at hentry
  distinct := by simp [Q.items_empty]
  live key entry hentry := by simp at hentry
  newest entry hentry := by simp [Q.items_empty] at hentry

/-- Before the generation counter wraps, a new generation exceeds every earlier one. -/
theorem lt_succ_generation {generation current : UInt64} (hle : generation ≤ current)
    (hroom : current.toNat + 1 < 2 ^ 64) : generation < current + 1 := by
  rw [UInt64.lt_iff_toNat_lt, UInt64.toNat_add]
  rw [UInt64.le_iff_toNat_le] at hle
  simp only [UInt64.toNat_one]
  omega

/-- `put` keeps the invariant while the generation counter has room. An
overwritten mapping leaves its heap entry behind as an older one. -/
theorem TExpiringCache.Matched.put {self : TExpiringCache Q Value} (hmatched : self.Matched)
    (hroom : self.currentGeneration.toNat + 1 < 2 ^ 64) (now : Int) (key : Key) (value : Value)
    (ttl : Int) : (self.put now key value ttl).1.Matched := by
  unfold TExpiringCache.put
  by_cases hstopping : self.isStopping
  · simpa only [hstopping, ↓reduceIte] using hmatched
  · simp only [hstopping, Bool.false_eq_true, ↓reduceIte]
    have hfresh : ∀ entry ∈ Q.items self.expirationQueue,
        entry.generation < self.currentGeneration + 1 :=
      fun entry hentry => lt_succ_generation (hmatched.bounded entry hentry) hroom
    constructor
    · intro entry hentry
      rcases Multiset.mem_cons.mp (Q.items_push _ _ ▸ hentry) with rfl | hold
      · exact UInt64.le_refl _
      · exact UInt64.le_of_lt (hfresh entry hold)
    · rw [Q.items_push, Multiset.map_cons, Multiset.nodup_cons]
      refine ⟨?_, hmatched.distinct⟩
      intro hmem
      obtain ⟨entry, hold, hgeneration⟩ := Multiset.mem_map.mp hmem
      exact UInt64.lt_irrefl _ (hgeneration ▸ hfresh entry hold)
    · intro other entry hentry
      rw [Q.items_push, Multiset.mem_cons]
      by_cases hkey : other = key
      · subst hkey
        simp only [Finmap.lookup_insert, Option.some.injEq] at hentry
        left
        rw [← hentry]
      · rw [Finmap.lookup_insert_of_ne _ hkey] at hentry
        exact .inr (hmatched.live other entry hentry)
    · intro entry hentry mapped hmapped
      rcases Multiset.mem_cons.mp (Q.items_push _ _ ▸ hentry) with rfl | hold
      · simp only [Finmap.lookup_insert, Option.some.injEq] at hmapped
        exact hmapped ▸ UInt64.le_refl _
      · by_cases hkey : entry.key = key
        · rw [hkey, Finmap.lookup_insert, Option.some.injEq] at hmapped
          exact hmapped ▸ UInt64.le_of_lt (hfresh entry hold)
        · rw [Finmap.lookup_insert_of_ne _ hkey] at hmapped
          exact hmatched.newest entry hold mapped hmapped

/-- Dropping mappings keeps the invariant: the heap entries left behind lose
their key or keep an older mapping than before. -/
theorem TExpiringCache.Matched.of_lookup {self next : TExpiringCache Q Value}
    (hmatched : self.Matched) (hcurrent : next.currentGeneration = self.currentGeneration)
    (hitems : Q.items next.expirationQueue ≤ Q.items self.expirationQueue)
    (hlookup : ∀ key entry, next.lookupMap.lookup key = some entry →
      self.lookupMap.lookup key = some entry ∧
        ⟨entry.toExpirationMetadata, key⟩ ∈ Q.items next.expirationQueue) : next.Matched where
  bounded entry hentry := hcurrent ▸ hmatched.bounded entry (Multiset.mem_of_le hitems hentry)
  distinct := Multiset.nodup_of_le (Multiset.map_le_map hitems) hmatched.distinct
  live key entry hentry := (hlookup key entry hentry).2
  newest entry hentry mapped hmapped := hmatched.newest entry (Multiset.mem_of_le hitems hentry)
    mapped (hlookup entry.key mapped hmapped).1

/-- A remove keeps every mapping matched by its heap entry. -/
theorem TExpiringCache.Matched.remove {self : TExpiringCache Q Value} (hmatched : self.Matched)
    (key : Key) : (self.remove key).1.Matched := by
  unfold TExpiringCache.remove
  by_cases hstopping : self.isStopping
  · simpa only [hstopping, ↓reduceIte] using hmatched
  · simp only [hstopping, Bool.false_eq_true, ↓reduceIte]
    refine hmatched.of_lookup rfl le_rfl fun other entry hentry => ?_
    by_cases hkey : other = key
    · subst hkey
      simp at hentry
    · rw [Finmap.lookup_erase_ne hkey] at hentry
      exact ⟨hentry, hmatched.live other entry hentry⟩

/-- A sweep keeps every mapping matched by its heap entry. -/
theorem TExpiringCache.Matched.sweep {self : TExpiringCache Q Value} (hmatched : self.Matched)
    (now : Int) : (self.sweep now).Matched := by
  refine hmatched.of_lookup rfl ?_ fun key entry hentry => ?_
  · rw [self.items_sweep now]
    exact Multiset.filter_le _ _
  · rw [hmatched.lookup_sweep now key, Option.filter_eq_some_iff] at hentry
    obtain ⟨hold, hfuture⟩ := hentry
    refine ⟨hold, ?_⟩
    rw [self.items_sweep now, Multiset.mem_filter]
    exact ⟨hmatched.live key entry hold, by simpa using hfuture⟩

theorem TExpiringCache.Matched.setStopping {self : TExpiringCache Q Value}
    (hmatched : self.Matched) : self.setStopping.Matched :=
  ⟨hmatched.bounded, hmatched.distinct, hmatched.live, hmatched.newest⟩

end spdlogger.expiring_cache
