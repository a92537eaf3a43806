import Mathlib.Data.Set.Card
import Spdlogger.ExpiringCache.Armed
import Spdlogger.ExpiringCache.Representation

namespace spdlogger.expiring_cache

variable {Key Value Tid : Type} [DecidableEq Key] [DecidableEq Tid] {Q : ExpirationQueue Key}

/-- On a running cache a get finds what is mapped and not expired. -/
theorem TExpiringCache.get_isSome_iff {self : TExpiringCache Q Value}
    (hrunning : self.isStopping = false) (now : Int) (key : Key) :
    (self.get now key).isSome = true ↔
      ∃ mapped, self.lookupMap.lookup key = some mapped ∧ now < mapped.expiration := by
  unfold TExpiringCache.get
  rw [if_neg (by simp [hrunning])]
  cases self.lookupMap.lookup key with
  | none => simp
  | some mapped =>
    by_cases hfuture : now < mapped.expiration
    · simp [hfuture]
    · simp [hfuture, not_lt.mp hfuture]

/-- Right after a sweep, the map has just the keys that can be got. -/
theorem TExpiringCache.Matched.size_sweep {self : TExpiringCache Q Value}
    (hmatched : self.Matched) (hrunning : self.isStopping = false) (now : Int) :
    (self.sweep now).size = {key | ((self.sweep now).get now key).isSome}.ncard := by
  have hrunningSwept : (self.sweep now).isStopping = false := hrunning
  have hkeys : {key | ((self.sweep now).get now key).isSome} =
      ((self.sweep now).lookupMap.keys : Set Key) := by
    ext key
    rw [Set.mem_ofPred_eq, TExpiringCache.get_isSome_iff hrunningSwept, Finset.mem_coe,
      Finmap.mem_keys, ← Finmap.lookup_isSome, Option.isSome_iff_exists]
    refine exists_congr fun mapped => and_iff_left_of_imp fun hmapped => ?_
    rw [hmatched.lookup_sweep now key, Option.filter_eq_some_iff] at hmapped
    simpa using hmapped.2
  rw [hkeys, Set.ncard_coe_finset, TExpiringCache.size, if_neg (by simp [hrunningSwept])]

/-- A sweep evicts exactly the expired entries, from the map and from the heap, as long as there
have been fewer than 2^64 puts. -/
theorem State.sweep_evicts_expired {s : State Q Value Tid}
    (hreach : (cacheMachine Q Value Tid).Reachable s) (hrunning : s.cache.isStopping = false)
    (hputs : s.history.countP TimedCall.isPut < 2 ^ 64) (now : Int) :
    (∀ key, (s.cache.sweep now).lookupMap.lookup key =
      (s.cache.lookupMap.lookup key).filter fun mapped => now < mapped.expiration) ∧
    Q.items (s.cache.sweep now).expirationQueue =
      (Q.items s.cache.expirationQueue).filter (fun entry => now < entry.expiration) ∧
    (s.cache.sweep now).size = {key | ((s.cache.sweep now).get now key).isSome}.ncard := by
  have hmatched := TExpiringCache.matched_afterAll (Q := Q) s.history hputs
  rw [← (recorded_of_reachable hreach).cache_eq] at hmatched
  exact ⟨hmatched.lookup_sweep now, s.cache.items_sweep now, hmatched.size_sweep hrunning now⟩

/-- One of two entries survives. -/
theorem sweep_evicts_expired_one_of_two :
    ∃ s : State (PriorityQueue.sorted (@HeapEntry.NotAfter Nat)) String Unit,
      (cacheMachine _ String Unit).Reachable s ∧
      (s.cache.sweep 2000000).lookupMap.lookup 1 = none ∧
      (s.cache.sweep 2000000).lookupMap.lookup 2 = some ⟨⟨5000000, 2⟩, "long"⟩ := by
  obtain ⟨s, hreach, hcheck⟩ := transition.Machine.exists_reachable_of_run
    (M := cacheMachine (PriorityQueue.sorted (@HeapEntry.NotAfter Nat)) String Unit)
    (s := { clock := 0 }) ⟨0, rfl⟩ [.put 1 "short" 1, .put 2 "long" 5]
    (fun s => (s.cache.isStopping = false ∧ s.history.countP TimedCall.isPut < 2 ^ 64) ∧
      s.cache.lookupMap.lookup 1 = some ⟨⟨1000000, 1⟩, "short"⟩ ∧
      s.cache.lookupMap.lookup 2 = some ⟨⟨5000000, 2⟩, "long"⟩) (by decide)
  simp only [decide_eq_true_eq] at hcheck
  obtain ⟨⟨hrunning, hputs⟩, hshort, hlong⟩ := hcheck
  have hsweep := (State.sweep_evicts_expired hreach hrunning hputs 2000000).1
  refine ⟨s, hreach, ?_, ?_⟩
  · rw [hsweep, hshort]
    rfl
  · rw [hsweep, hlong]
    rfl

section Wrapping

variable {Q : ExpirationQueue Nat}

/-- The heap entry of a put on key 1 that is to live for an hour. -/
def hourEntry : HeapEntry Nat := ⟨⟨3600000000000, 1⟩, 1⟩

/-- So many puts in, the heap is back to that one entry and the handler asleep. -/
structure State.SweptDown (s : State Q String Unit) (puts : Nat) : Prop where
  asleep : ∃ deadline, s.handler = .blocked deadline
  clock_eq : s.clock = 0
  running : s.cache.isStopping = false
  generation : s.cache.currentGeneration = UInt64.ofNat puts
  items : Q.items s.cache.expirationQueue = {hourEntry}

/-- Another put, of an entry that expires at once, wakes the handler; it sweeps the
entry and goes back to sleep. -/
theorem State.SweptDown.put {s : State Q String Unit} {puts : Nat} (h : s.SweptDown puts)
    (hreach : (cacheMachine Q String Unit).Reachable s) :
    ∃ next, (cacheMachine Q String Unit).Reachable next ∧ next.SweptDown (puts + 1) := by
  obtain ⟨deadline, hasleep⟩ := h.asleep
  have hrunning := h.running
  let pushed := (s.cache.put 0 2 "other" 0).1
  have hpushed : Q.items pushed.expirationQueue =
      ⟨⟨0, s.cache.currentGeneration + 1⟩, 2⟩ ::ₘ {hourEntry} := by
    rw [s.cache.items_put hrunning, h.items]
    rfl
  have hstill : pushed.isStopping = false := (s.cache.isStopping_put ..).trans hrunning
  have hswept : Q.items (pushed.sweep 0).expirationQueue = {hourEntry} := by
    rw [pushed.items_sweep, hpushed]
    simp [Multiset.filter_singleton, hourEntry]
  have hnotify : (s.cache.put 0 2 "other" 0).2 = true := by
    apply s.cache.put_notifies hrunning
    rw [h.items]
    simp [hourEntry, expirationAt, toRep]
  have hdue : pushed.wakePredicate 0 = true := by
    rw [pushed.wakePredicate_iff, hpushed]
    exact .inr ⟨_, Multiset.mem_cons_self _ _, le_rfl⟩
  have hfuture : (pushed.sweep 0).wakePredicate 0 = false := by
    rw [← Bool.not_eq_true, TExpiringCache.wakePredicate_iff, hswept]
    rintro (hstop | ⟨entry, hentry, hexpired⟩)
    · exact absurd (hstill.symm.trans hstop) (by simp)
    · rw [Multiset.mem_singleton.mp hentry] at hexpired
      exact absurd hexpired (by decide)
  refine ⟨{ s with
    cache := pushed.sweep 0
    handler := .blocked (pushed.sweep 0).timeToWaitUntil
    history := s.history ++ [⟨0, .put 2 "other" 0⟩] ++ [⟨0, .sweep⟩] }, ?_, ?_⟩
  · refine hreach.run (?_ : (cacheMachine Q String Unit).run s
      (.put 2 "other" 0 :: List.replicate 5 .handlerStep) = some _)
    simp [transition.Machine.run, cacheMachine, State.step, State.handlerStep, State.notifyIf,
      State.record, HandlerPhase.mutexFree, HandlerPhase.notified, List.replicate, h.clock_eq,
      hasleep, hnotify, pushed, hdue, hstill, hfuture]
  · refine ⟨⟨_, rfl⟩, h.clock_eq, hstill, ?_, hswept⟩
    have hgeneration : pushed.currentGeneration = s.cache.currentGeneration + 1 := by
      simp [pushed, TExpiringCache.put, hrunning]
    show pushed.currentGeneration = _
    rw [hgeneration, h.generation]
    exact (UInt64.ofNat_add puts 1).symm

/-- The first put, before the handler takes the mutex for the first time. -/
theorem exists_sweptDown_one : ∃ s : State Q String Unit,
    (cacheMachine Q String Unit).Reachable s ∧ s.SweptDown 1 := by
  let cache := (({} : TExpiringCache Q String).put 0 1 "old" 3600000).1
  have hitems : Q.items cache.expirationQueue = {hourEntry} := by
    rw [TExpiringCache.items_put _ rfl, Q.items_empty]
    rfl
  have hfuture : cache.wakePredicate 0 = false := by
    rw [← Bool.not_eq_true, TExpiringCache.wakePredicate_iff, hitems]
    rintro (hstop | ⟨entry, hentry, hexpired⟩)
    · cases hstop
    · rw [Multiset.mem_singleton.mp hentry] at hexpired
      exact absurd hexpired (by decide)
  have hinit : (cacheMachine Q String Unit).Reachable { clock := 0 } := .init ⟨0, rfl⟩
  refine ⟨{
    cache
    handler := .blocked cache.timeToWaitUntil
    history := [⟨0, .put 1 "old" 3600000⟩] }, ?_, ⟨_, rfl⟩, rfl, rfl, rfl, hitems⟩
  refine hinit.run (?_ : (cacheMachine Q String Unit).run { clock := 0 }
    (.put 1 "old" 3600000 :: List.replicate 3 .handlerStep) = some _)
  simp [transition.Machine.run, cacheMachine, State.step, State.handlerStep, State.notifyIf,
    State.record, HandlerPhase.mutexFree, HandlerPhase.notified, List.replicate, cache, hfuture]

/-- However many puts follow, the heap need not grow. -/
theorem exists_sweptDown (others : Nat) : ∃ s : State Q String Unit,
    (cacheMachine Q String Unit).Reachable s ∧ s.SweptDown (others + 1) := by
  induction others with
  | zero => exact exists_sweptDown_one
  | succ others ih =>
    obtain ⟨s, hreach, hswept⟩ := ih
    exact hswept.put hreach

/-- With the 2^64-th put after it, the first put's generation comes back. Its heap
entry, once expired, then takes along a mapping that is to live longer. The puts in
between are swept one by one, so the heap has two entries at most on the way. -/
theorem exists_live_entry_evicted :
    ∃ (s : State (PriorityQueue.sorted (@HeapEntry.NotAfter Nat)) String Unit) (now : Int) (key : Nat),
      (cacheMachine _ String Unit).Reachable s ∧ s.cache.isStopping = false ∧
      (s.cache.sweep now).lookupMap.lookup key ≠
        (s.cache.lookupMap.lookup key).filter fun mapped => now < mapped.expiration := by
  obtain ⟨s, hreach, hswept⟩ :=
    exists_sweptDown (Q := PriorityQueue.sorted (@HeapEntry.NotAfter Nat)) (2 ^ 64 - 1)
  obtain ⟨deadline, hasleep⟩ := hswept.asleep
  have hrunning := hswept.running
  let cache := (s.cache.put 0 1 "new" 7200000).1
  have hstep : (cacheMachine _ String Unit).step s (.put 1 "new" 7200000) = some { s with
      cache
      handler := s.notifyIf (s.cache.put 0 1 "new" 7200000).2
      history := s.record (.put 1 "new" 7200000) } := by
    simp [cacheMachine, State.step, hasleep, HandlerPhase.mutexFree, hswept.clock_eq, cache]
  have hstill : cache.isStopping = false := (s.cache.isStopping_put ..).trans hrunning
  have hmapped : cache.lookupMap.lookup 1 = some ⟨⟨7200000000000, 1⟩, "new"⟩ := by
    have hback : s.cache.currentGeneration + 1 = 1 := by
      rw [hswept.generation]
      rfl
    simp only [cache, TExpiringCache.put, hrunning, Bool.false_eq_true, if_false, hback,
      Finmap.lookup_insert]
    rfl
  have hold : hourEntry ∈
      (PriorityQueue.sorted (@HeapEntry.NotAfter Nat)).items cache.expirationQueue := by
    rw [s.cache.items_put hrunning, hswept.items]
    exact Multiset.mem_cons_of_mem (Multiset.mem_singleton_self _)
  refine ⟨_, 3600000000000, 1, hreach.step hstep, hstill, ?_⟩
  have hevicted : (cache.sweep 3600000000000).lookupMap.lookup 1 = none := by
    rw [cache.lookup_sweep_eq, hmapped, Option.filter_eq_none_iff]
    rintro mapped hsome
    cases hsome
    rw [decide_eq_true_eq]
    exact fun hnone => hnone _ hold le_rfl ⟨rfl, rfl⟩
  show (cache.sweep 3600000000000).lookupMap.lookup 1 ≠ (cache.lookupMap.lookup 1).filter _
  rw [hevicted, hmapped]
  simp [Option.filter]

end Wrapping

end spdlogger.expiring_cache
