import Spdlogger.ExpiringCache.Linearized
import Spdlogger.ExpiringCache.Refinement

namespace spdlogger.expiring_cache

open linearizable (Object)

variable {Key Value Tid : Type} [DecidableEq Key] [DecidableEq Tid] {Q : ExpirationQueue Key}

/-- The map with deadlines, with what the clock reads. -/
structure TimedMap (Key Value : Type) where
  map : DeadlineMap Key Value
  clock : Int

/-- The map as an object of its own. What has expired may still be counted, and may still
be there to be removed. -/
def deadlineObject (Key Value : Type) [DecidableEq Key] :
    Object (TimedMap Key Value) (Op Key Value) (Ret Value) Int where
  stamp value := value.clock
  init value := value.map = {}
  apply value op next ret := next.clock = value.clock ∧
    match op with
    | .put key written ttl =>
      next.map = value.map.after ⟨value.clock, .put key written ttl⟩ ∧ ret = .done
    | .get key => next.map = value.map ∧ ret = .found (value.map.get value.clock key)
    | .remove key => next.map = value.map.after ⟨value.clock, .remove key⟩ ∧
      ∃ removed, ret = .removed removed ∧
        ((value.map.get value.clock key).isSome → removed = true) ∧
        (removed = true → value.map.stopped = false ∧ (value.map.stored key).isSome)
    | .size => next.map = value.map ∧
      ∃ keys : Finset Key, ret = .size keys.card ∧
        (∀ key, (value.map.get value.clock key).isSome → key ∈ keys) ∧
        ∀ key ∈ keys, value.map.stopped = false ∧ (value.map.stored key).isSome
    | .stop => next.map = value.map.after ⟨value.clock, .stop⟩ ∧ ret = .done
  evolve value next := next.map = value.map ∧ value.clock ≤ next.clock

/-- The cache shows what the map shows, and holds nothing that the map does not hold. -/
structure RefinesAt (value : TimedCache Q Value) (other : TimedMap Key Value) : Prop where
  clock : value.clock = other.clock
  refines : Refines value.cache other.map other.clock
  present : value.cache.isStopping = false → ∀ key entry,
    value.cache.lookupMap.lookup key = some entry → other.map.stored key = some entry.content

/-- The expiration fits into the clock's 64 bits, and the counter into its own. -/
def InRange (value : TimedCache Q Value) (ttl : Int) : Prop :=
  expirationAt value.clock ttl = value.clock + ttl * 1000000 ∧
    value.cache.currentGeneration.toNat + 1 < 2 ^ 64

instance (value : TimedCache Q Value) (ttl : Int) : Decidable (InRange value ttl) :=
  inferInstanceAs (Decidable (_ ∧ _))

/-- What the map shows, the cache has. -/
theorem RefinesAt.lookup_of_get {value : TimedCache Q Value} {other : TimedMap Key Value}
    (h : RefinesAt value other) {key : Key} (hget : (other.map.get other.clock key).isSome) :
    value.cache.isStopping = false ∧ (value.cache.lookupMap.lookup key).isSome := by
  rw [← h.refines.get_eq] at hget
  unfold TExpiringCache.get at hget
  split at hget
  · cases hget
  · rename_i hrunning
    refine ⟨by simpa using hrunning, ?_⟩
    cases hfound : value.cache.lookupMap.lookup key with
    | none => simp [hfound] at hget
    | some entry => rfl

/-- What the cache has, the map has stored. -/
theorem RefinesAt.stored_of_lookup {value : TimedCache Q Value} {other : TimedMap Key Value}
    (h : RefinesAt value other) (hrunning : value.cache.isStopping = false) {key : Key}
    (hfound : (value.cache.lookupMap.lookup key).isSome) :
    other.map.stopped = false ∧ (other.map.stored key).isSome := by
  obtain ⟨entry, hentry⟩ := Option.isSome_iff_exists.mp hfound
  refine ⟨h.refines.stopped ▸ hrunning, ?_⟩
  rw [h.present hrunning key entry hentry]
  rfl

/-- A put within the ranges is one put to the map. -/
theorem RefinesAt.put {value : TimedCache Q Value} {other : TimedMap Key Value}
    (h : RefinesAt value other) (key : Key) (written : Value) (ttl : Int)
    (hrange : value.cache.isStopping = false → InRange value ttl) :
    RefinesAt ⟨(value.cache.put value.clock key written ttl).1, value.clock⟩
      ⟨other.map.after ⟨other.clock, .put key written ttl⟩, other.clock⟩ := by
  cases hstopping : value.cache.isStopping with
  | true =>
    have hsame : (value.cache.put value.clock key written ttl).1 = value.cache := by
      simp [TExpiringCache.put, hstopping]
    rw [hsame]
    refine ⟨h.clock, ⟨h.refines.stopped, h.refines.matched, ?_⟩, ?_⟩ <;>
    · intro hrunning
      rw [hstopping] at hrunning
      cases hrunning
  | false =>
    obtain ⟨hexact, hroom⟩ := hrange hstopping
    refine ⟨h.clock, ?_, fun _ other entry hentry => ?_⟩
    · have hrefines := h.refines.put hroom key written ttl (h.clock ▸ hexact)
      rw [← h.clock] at hrefines ⊢
      exact hrefines
    · simp only [TExpiringCache.put, hstopping, Bool.false_eq_true, ↓reduceIte] at hentry
      by_cases hkey : other = key
      · subst hkey
        simp only [Finmap.lookup_insert, Option.some.injEq] at hentry
        rw [h.clock] at hexact hentry
        simp [DeadlineMap.after, ← hentry, MapEntry.content, hexact]
      · rw [Finmap.lookup_insert_of_ne _ hkey] at hentry
        simp [DeadlineMap.after, Function.update_of_ne hkey, h.present hstopping other entry hentry]

/-- A remove takes the key from both. -/
theorem RefinesAt.remove {value : TimedCache Q Value} {other : TimedMap Key Value}
    (h : RefinesAt value other) (key : Key) :
    RefinesAt ⟨(value.cache.remove key).1, value.clock⟩
      ⟨other.map.after ⟨other.clock, .remove key⟩, other.clock⟩ := by
  refine ⟨h.clock, h.refines.remove key, fun hrunning other entry hentry => ?_⟩
  have hcache : value.cache.isStopping = false := by
    simp only [TExpiringCache.remove] at hrunning
    split at hrunning <;> exact hrunning
  simp only [TExpiringCache.remove, hcache, Bool.false_eq_true, ↓reduceIte] at hentry
  by_cases hkey : other = key
  · subst hkey
    simp at hentry
  · rw [Finmap.lookup_erase_ne hkey] at hentry
    simp [DeadlineMap.after, Function.update_of_ne hkey, h.present hcache other entry hentry]

/-- A sweep is nothing the map can see. -/
theorem RefinesAt.sweep {value : TimedCache Q Value} {other : TimedMap Key Value}
    (h : RefinesAt value other) : RefinesAt ⟨value.cache.sweep value.clock, value.clock⟩ other := by
  refine ⟨h.clock, ?_, fun hrunning key entry hentry => ?_⟩
  · rw [h.clock]
    exact h.refines.sweep
  · dsimp only at hentry
    rw [h.refines.matched.lookup_sweep value.clock key, Option.filter_eq_some_iff] at hentry
    exact h.present hrunning key entry hentry.1

/-- What `remove` returns. -/
theorem RefinesAt.removed {value : TimedCache Q Value} {other : TimedMap Key Value}
    (h : RefinesAt value other) (key : Key) :
    ((other.map.get other.clock key).isSome → (value.cache.remove key).2.1 = true) ∧
      ((value.cache.remove key).2.1 = true →
        other.map.stopped = false ∧ (other.map.stored key).isSome) := by
  constructor
  · intro hget
    obtain ⟨hrunning, hfound⟩ := h.lookup_of_get hget
    simpa [TExpiringCache.remove, hrunning] using hfound
  · intro hremoved
    cases hstopping : value.cache.isStopping with
    | true => simp [TExpiringCache.remove, hstopping] at hremoved
    | false =>
      simp only [TExpiringCache.remove, hstopping, Bool.false_eq_true, ↓reduceIte] at hremoved
      exact h.stored_of_lookup hstopping hremoved

/-- What `size` counts. -/
theorem RefinesAt.size {value : TimedCache Q Value} {other : TimedMap Key Value}
    (h : RefinesAt value other) : ∃ keys : Finset Key, value.cache.size = keys.card ∧
      (∀ key, (other.map.get other.clock key).isSome → key ∈ keys) ∧
      ∀ key ∈ keys, other.map.stopped = false ∧ (other.map.stored key).isSome := by
  cases hstopping : value.cache.isStopping with
  | true =>
    refine ⟨∅, by simp [TExpiringCache.size, hstopping], fun key hget => ?_, by simp⟩
    have hrunning := (h.lookup_of_get hget).1
    rw [hstopping] at hrunning
    cases hrunning
  | false =>
    refine ⟨value.cache.lookupMap.keys, by simp [TExpiringCache.size, hstopping],
      fun key hget => ?_, fun key hkey => ?_⟩
    · rw [Finmap.mem_keys, ← Finmap.lookup_isSome]
      exact (h.lookup_of_get hget).2
    · rw [Finmap.mem_keys, ← Finmap.lookup_isSome] at hkey
      exact h.stored_of_lookup hstopping hkey

/-- The cache, each method taken at once, implements the map with deadlines. -/
theorem cacheObject_implements :
    (cacheObject Q Value InRange).Implements (deadlineObject Key Value) RefinesAt where
  stamp _ _ h := h.clock
  init value hinit := by
    obtain ⟨cache, clock⟩ := value
    subst hinit
    exact ⟨⟨{}, clock⟩, rfl, rfl, ⟨rfl, TExpiringCache.matched_empty, fun _ _ => rfl⟩,
      fun _ key entry hentry => by simp at hentry⟩
  apply value other op next ret h happly := by
    obtain ⟨cache, clock⟩ := next
    obtain ⟨hclock, hcall, hadmits⟩ := happly
    dsimp only at hclock hcall
    subst hclock
    cases op with
    | put key written ttl =>
      simp only [TExpiringCache.call, Prod.mk.injEq] at hcall
      obtain ⟨rfl, rfl⟩ := hcall
      exact ⟨⟨other.map.after ⟨other.clock, .put key written ttl⟩, other.clock⟩,
        ⟨rfl, rfl, rfl⟩, h.put key written ttl (hadmits key written ttl rfl)⟩
    | get key =>
      simp only [TExpiringCache.call, Prod.mk.injEq] at hcall
      obtain ⟨rfl, rfl⟩ := hcall
      refine ⟨other, ⟨rfl, rfl, ?_⟩, h⟩
      rw [h.clock, h.refines.get_eq]
    | remove key =>
      simp only [TExpiringCache.call, Prod.mk.injEq] at hcall
      obtain ⟨rfl, rfl⟩ := hcall
      obtain ⟨hlive, hstored⟩ := h.removed key
      exact ⟨⟨other.map.after ⟨other.clock, .remove key⟩, other.clock⟩,
        ⟨rfl, rfl, _, rfl, hlive, hstored⟩, h.remove key⟩
    | size =>
      simp only [TExpiringCache.call, Prod.mk.injEq] at hcall
      obtain ⟨rfl, rfl⟩ := hcall
      obtain ⟨keys, hsize, hlive, hstored⟩ := h.size
      refine ⟨other, ⟨rfl, rfl, keys, ?_, hlive, hstored⟩, h⟩
      rw [hsize]
    | stop =>
      simp only [TExpiringCache.call, Prod.mk.injEq] at hcall
      obtain ⟨rfl, rfl⟩ := hcall
      exact ⟨⟨other.map.after ⟨other.clock, .stop⟩, other.clock⟩, ⟨rfl, rfl, rfl⟩, h.clock,
        ⟨rfl, h.refines.matched.setStopping, fun hrunning => by cases hrunning⟩,
        fun hrunning => by cases hrunning⟩
  evolve value other next h hevolve := by
    obtain ⟨cache, clock⟩ := next
    obtain ⟨hcache, hclock⟩ | ⟨hcache, hclock⟩ := hevolve
    · dsimp only at hcache hclock
      subst hcache
      rw [h.clock] at hclock
      exact ⟨⟨other.map, clock⟩, ⟨rfl, hclock⟩, rfl, h.refines.advance hclock, h.present⟩
    · dsimp only at hcache hclock
      subst hcache hclock
      exact ⟨other, ⟨rfl, le_rfl⟩, h.sweep⟩

/-- The same for the plain map with deadlines: the handler and its sweeps are not to be
seen, and neither is the heap. -/
theorem Interleaved.linearizes_deadlines {s : Interleaved Q Value Tid}
    (hreach : (interleavedMachine Q Value Tid).ReachableBy (Interleaved.Permits InRange) s) :
    (deadlineObject Key Value).Linearizes s.history :=
  cacheObject_implements.linearizes ⟨_, _, (Interleaved.linked_of_reachableBy hreach).produces⟩

/-- A `get` before the deadline finds the value; a `remove` that is called during the
sweep finds nothing any more. -/
theorem linearizes_deadlines_swept : ∃ s,
    (interleavedMachine (PriorityQueue.sorted (@HeapEntry.NotAfter Nat)) String Nat).ReachableBy
        (Interleaved.Permits InRange) s ∧
      s.history = [.invoke 0 (.put 1 "a" 1) 0, .respond 0 .done 0, .invoke 0 (.get 1) 0,
        .respond 0 (.found (some "a")) 0, .invoke 0 (.remove 1) 2000000,
        .respond 0 (.removed false) 2000000] ∧
      (deadlineObject Nat String).Linearizes s.history := by
  obtain ⟨s, hreach, hcheck⟩ := transition.Machine.exists_reachableBy_of_runBy
    (M := interleavedMachine (PriorityQueue.sorted (@HeapEntry.NotAfter Nat)) String Nat)
    (Interleaved.Permits InRange) (s := {}) ⟨0, rfl⟩
    (.handlerStep :: .handlerStep :: .handlerStep :: .call 0 (.put 1 "a" 1) ::
      List.replicate 8 (.callerStep 0) ++ .call 0 (.get 1) :: List.replicate 6 (.callerStep 0) ++
      .tick 2000000 :: .handlerStep :: .handlerStep ::
      .call 0 (.remove 1) :: List.replicate 5 .handlerStep ++ List.replicate 6 (.callerStep 0))
    (fun s => decide (s.history = [.invoke 0 (.put 1 "a" 1) 0, .respond 0 .done 0,
      .invoke 0 (.get 1) 0, .respond 0 (.found (some "a")) 0, .invoke 0 (.remove 1) 2000000,
      .respond 0 (.removed false) 2000000])) (by decide +kernel)
  exact ⟨s, hreach, by simpa using hcheck, Interleaved.linearizes_deadlines hreach⟩

end spdlogger.expiring_cache
