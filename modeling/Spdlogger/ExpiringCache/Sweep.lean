import Spdlogger.ExpiringCache.Data

namespace spdlogger.expiring_cache

variable {Key Value : Type} [DecidableEq Key] {Q : ExpirationQueue Key}

/-- The map and the heap agree: every map entry is backed by the heap entry
pushed with it, no two heap entries share a generation, and a heap entry whose
key is mapped is no newer than the mapping. -/
structure TExpiringCache.Matched (cache : TExpiringCache Q Value) : Prop where
  bounded : ∀ entry ∈ Q.items cache.expirationQueue, entry.generation ≤ cache.currentGeneration
  distinct : ((Q.items cache.expirationQueue).map fun entry => entry.generation).Nodup
  live : ∀ key entry, cache.lookupMap.lookup key = some entry →
    ⟨entry.toExpirationMetadata, key⟩ ∈ Q.items cache.expirationQueue
  newest : ∀ entry ∈ Q.items cache.expirationQueue, ∀ mapped,
    cache.lookupMap.lookup entry.key = some mapped → entry.generation ≤ mapped.generation

/-- Two heap entries of one generation are the same entry. -/
theorem TExpiringCache.Matched.eq_of_generation {self : TExpiringCache Q Value}
    (hmatched : self.Matched) {first second : HeapEntry Key}
    (hfirst : first ∈ Q.items self.expirationQueue)
    (hsecond : second ∈ Q.items self.expirationQueue)
    (hgeneration : first.generation = second.generation) : first = second :=
  Multiset.inj_on_of_nodup_map hmatched.distinct first hfirst second hsecond hgeneration

/-- A heap entry carrying the generation its key is mapped with is the entry
backing the mapping, deadline included. -/
theorem TExpiringCache.Matched.expiration_eq {self : TExpiringCache Q Value}
    (hmatched : self.Matched) {expired : HeapEntry Key} {mapped : MapEntry Value}
    (hexpired : expired ∈ Q.items self.expirationQueue)
    (hmapped : self.lookupMap.lookup expired.key = some mapped)
    (hgeneration : mapped.generation = expired.generation) :
    mapped.expiration = expired.expiration := by
  have hlive := hmatched.live expired.key mapped hmapped
  have heq := hmatched.eq_of_generation hlive hexpired hgeneration
  rw [← heq]

/-- An expired entry takes the mapping of its key, if the generation is the same. -/
theorem lookup_evict (lookupMap : Finmap fun _ : Key => MapEntry Value)
    (expiredData : HeapEntry Key) (key : Key) :
    (evict lookupMap expiredData).lookup key =
      (lookupMap.lookup key).filter fun mapped =>
        ¬ (expiredData.key = key ∧ expiredData.generation = mapped.generation) := by
  unfold evict
  by_cases hkey : expiredData.key = key
  · subst hkey
    cases hfound : lookupMap.lookup expiredData.key with
    | none => simp [hfound]
    | some mapped =>
      by_cases hgeneration : mapped.generation = expiredData.generation
      · simp [hgeneration, Option.filter]
      · simp [hfound, hgeneration, Ne.symm hgeneration, Option.filter]
  · have hother : key ≠ expiredData.key := fun h => hkey h.symm
    have hkeep : (lookupMap.lookup key).filter (fun mapped =>
        ¬ (expiredData.key = key ∧ expiredData.generation = mapped.generation)) =
        lookupMap.lookup key := by
      cases lookupMap.lookup key <;> simp [hkey]
    rw [hkeep]
    split
    · rfl
    · split
      · exact Finmap.lookup_erase_ne hother
      · rfl

/-- After the loop a mapping survives exactly when no popped heap entry carried
its key and generation. -/
theorem lookup_foldl_evict (popped : List (HeapEntry Key))
    (lookupMap : Finmap fun _ : Key => MapEntry Value) (key : Key) :
    (popped.foldl evict lookupMap).lookup key =
      (lookupMap.lookup key).filter fun mapped =>
        ∀ expired ∈ popped, ¬ (expired.key = key ∧ expired.generation = mapped.generation) := by
  induction popped generalizing lookupMap with
  | nil => cases h : lookupMap.lookup key <;> simp [h, Option.filter]
  | cons expired rest ih =>
    rw [List.foldl_cons, ih, lookup_evict, Option.filter_filter]
    congr 1
    funext mapped
    simp

omit [DecidableEq Key] in
private theorem due_of_notAfter (now : Int) (first second : HeapEntry Key)
    (hle : first.NotAfter second) (hdue : decide (second.expiration ≤ now) = true) :
    decide (first.expiration ≤ now) = true := by
  rw [HeapEntry.notAfter_iff] at hle
  simp only [decide_eq_true_eq] at *
  exact hle.trans hdue

/-- A sweep leaves exactly the heap entries that are still due in the future. -/
theorem TExpiringCache.items_sweep (self : TExpiringCache Q Value) (now : Int) :
    Q.items (self.sweep now).expirationQueue =
      (Q.items self.expirationQueue).filter fun entry => now < entry.expiration := by
  have hspec := (Q.drain_spec (fun top => decide (top.expiration ≤ now)) (due_of_notAfter now)
    evict self.expirationQueue self.lookupMap).1
  unfold TExpiringCache.sweep
  rw [hspec]
  exact Multiset.filter_congr fun entry _ => by simp

/-- A sweep takes the mappings whose generation is that of an expired heap entry
of their key. -/
theorem TExpiringCache.lookup_sweep_eq (self : TExpiringCache Q Value) (now : Int) (key : Key) :
    (self.sweep now).lookupMap.lookup key = (self.lookupMap.lookup key).filter fun mapped =>
      ∀ expired ∈ Q.items self.expirationQueue, expired.expiration ≤ now →
        ¬ (expired.key = key ∧ expired.generation = mapped.generation) := by
  obtain ⟨_, popped, hpopped, hmap⟩ := Q.drain_spec (fun top => decide (top.expiration ≤ now))
    (due_of_notAfter now) evict self.expirationQueue self.lookupMap
  have hmem : ∀ expired, expired ∈ popped ↔
      expired ∈ Q.items self.expirationQueue ∧ expired.expiration ≤ now := by
    intro expired
    rw [← Multiset.mem_coe, hpopped, Multiset.mem_filter, decide_eq_true_eq]
  have hlookup : (self.sweep now).lookupMap = popped.foldl evict self.lookupMap := hmap
  rw [hlookup, lookup_foldl_evict]
  congr 1
  funext mapped
  simp only [hmem, and_imp]

/-- A sweep leaves exactly the map entries that are still due in the future,
unchanged. A stale heap entry never costs a newer mapping of its key. -/
theorem TExpiringCache.Matched.lookup_sweep {self : TExpiringCache Q Value}
    (hmatched : self.Matched) (now : Int) (key : Key) :
    (self.sweep now).lookupMap.lookup key =
      (self.lookupMap.lookup key).filter fun mapped => now < mapped.expiration := by
  rw [self.lookup_sweep_eq now key]
  cases hmapped : self.lookupMap.lookup key with
  | none => rfl
  | some mapped =>
    have hiff : (∀ expired ∈ Q.items self.expirationQueue, expired.expiration ≤ now →
        ¬ (expired.key = key ∧ expired.generation = mapped.generation)) ↔
        now < mapped.expiration := by
      constructor
      · intro hnone
        by_contra hdueNow
        exact hnone ⟨mapped.toExpirationMetadata, key⟩ (hmatched.live key mapped hmapped)
          (not_lt.mp hdueNow) ⟨rfl, rfl⟩
      · rintro hfuture expired hexpired hpast ⟨rfl, hgeneration⟩
        have heq := hmatched.expiration_eq hexpired hmapped hgeneration.symm
        omega
    simp only [Option.filter, hiff]

end spdlogger.expiring_cache
