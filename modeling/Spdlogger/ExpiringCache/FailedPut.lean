import Spdlogger.ExpiringCache.Armed
import Spdlogger.ExpiringCache.Representation

namespace spdlogger.expiring_cache

variable {Key Value : Type} [DecidableEq Key] {Q : ExpirationQueue Key}

/-- Where `expirationQueue_.push` throws: before the entry is in the vector, in the
copy of the key for it or in `push_back`; or afterwards, between two moves of
`push_heap`, with the contents that are left then. -/
inductive PushFailure (Q : ExpirationQueue Key) where
  | pushing
  | sifting (left : Q.Carrier)

/-- The heap after the exception. A failed `push_back` leaves it as it was. -/
def PushFailure.leaves (queue : Q.Carrier) : PushFailure Q → Q.Carrier
  | .pushing => queue
  | .sifting left => left

/-- `put` when `expirationQueue_.push`, or the copy of the key for it, throws. The
mapping has been written by then. -/
def TExpiringCache.putThrows (self : TExpiringCache Q Value) (now : Int) (key : Key)
    (value : Value) (ttl : Int) (failure : PushFailure Q) : TExpiringCache Q Value :=
  if self.isStopping then self
  else
    let metadata : ExpirationMetadata := ⟨expirationAt now ttl, self.currentGeneration + 1⟩
    { self with
      currentGeneration := metadata.generation
      lookupMap := self.lookupMap.insert key ⟨metadata, value⟩
      expirationQueue := failure.leaves self.expirationQueue }

/-- A critical section that completes, or a put that fails before anything is pushed.
A vector in the middle of `push_heap` need not be a heap, and no history goes on
from there. -/
inductive Attempt (Key Value : Type) where
  | completed (event : TimedCall Key Value)
  | putThrew (now : Int) (key : Key) (value : Value) (ttl : Int)
  deriving DecidableEq, Repr

/-- A `put`, whether it came through or not. -/
def Attempt.isPut : Attempt Key Value → Bool
  | .completed event => event.isPut
  | .putThrew .. => true

/-- The attempt is a put or a remove on the key. -/
def Attempt.writes (key : Key) : Attempt Key Value → Bool
  | .completed event => event.writes key
  | .putThrew _ target _ _ => target = key

/-- The cache after one more attempt. -/
def TExpiringCache.afterAttempt (self : TExpiringCache Q Value) :
    Attempt Key Value → TExpiringCache Q Value
  | .completed event => self.after event
  | .putThrew now key value ttl => self.putThrows now key value ttl .pushing

/-- The cache after a history in which any put may have failed midway. -/
def TExpiringCache.afterAttempts (Q : ExpirationQueue Key) (attempts : List (Attempt Key Value)) :
    TExpiringCache Q Value :=
  attempts.foldl TExpiringCache.afterAttempt {}

theorem TExpiringCache.afterAttempts_append (attempts : List (Attempt Key Value))
    (attempt : Attempt Key Value) :
    TExpiringCache.afterAttempts Q (attempts ++ [attempt]) =
      (TExpiringCache.afterAttempts Q attempts).afterAttempt attempt := by
  simp [TExpiringCache.afterAttempts]

/-- Histories without a failure are those of the completed critical sections. -/
theorem TExpiringCache.afterAttempts_completed (history : List (TimedCall Key Value)) :
    TExpiringCache.afterAttempts Q (history.map .completed) =
      TExpiringCache.afterAll Q history := by
  rw [TExpiringCache.afterAttempts, List.foldl_map]
  rfl

/-- What a put that fails should leave: every mapping backed by its heap entry,
and the value stored under the key before. -/
structure TExpiringCache.ExceptionSafe (before after : TExpiringCache Q Value) (key : Key) :
    Prop where
  backed : ∀ other mapped, after.lookupMap.lookup other = some mapped →
    ⟨mapped.toExpirationMetadata, other⟩ ∈ Q.items after.expirationQueue
  kept : ∀ mapped, before.lookupMap.lookup key = some mapped →
    ∃ still, after.lookupMap.lookup key = some still ∧ still.value = mapped.value

/-- The entry a put at this clock reading is to push. -/
def TExpiringCache.entryFor (cache : TExpiringCache Q Value) (now : Int) (key : Key) (ttl : Int) :
    HeapEntry Key :=
  ⟨⟨expirationAt now ttl, cache.currentGeneration + 1⟩, key⟩

/-- What is left of the heap has the entry the put was to push and backs the other
mappings, and the value is the one already stored. -/
structure TExpiringCache.Survives (cache : TExpiringCache Q Value) (now : Int) (key : Key)
    (value : Value) (ttl : Int) (left : Q.Carrier) : Prop where
  pushed : cache.entryFor now key ttl ∈ Q.items left
  others : ∀ other mapped, other ≠ key → cache.lookupMap.lookup other = some mapped →
    ⟨mapped.toExpirationMetadata, other⟩ ∈ Q.items left
  same : ∀ mapped, cache.lookupMap.lookup key = some mapped → value = mapped.value

section Throwing

variable {self : TExpiringCache Q Value} (hrunning : self.isStopping = false) (now : Int)
  (key : Key) (value : Value) (ttl : Int) (failure : PushFailure Q)

include hrunning

/-- The mapping of a failed put has been assigned. -/
theorem TExpiringCache.lookup_putThrows_self :
    (self.putThrows now key value ttl failure).lookupMap.lookup key =
      some ⟨⟨expirationAt now ttl, self.currentGeneration + 1⟩, value⟩ := by
  simp [TExpiringCache.putThrows, hrunning]

/-- A failed put leaves the other mappings alone. -/
theorem TExpiringCache.lookup_putThrows_of_ne {other : Key} (hne : other ≠ key) :
    (self.putThrows now key value ttl failure).lookupMap.lookup other =
      self.lookupMap.lookup other := by
  simp [TExpiringCache.putThrows, hrunning, hne]

/-- The heap after a failed put is what the push has left. -/
theorem TExpiringCache.queue_putThrows :
    (self.putThrows now key value ttl failure).expirationQueue =
      failure.leaves self.expirationQueue := by
  simp [TExpiringCache.putThrows, hrunning]

/-- Wherever the push throws, what is left decides. -/
theorem TExpiringCache.exceptionSafe_iff :
    self.ExceptionSafe (self.putThrows now key value ttl failure) key ↔
      self.Survives now key value ttl (failure.leaves self.expirationQueue) := by
  have hself := self.lookup_putThrows_self hrunning now key value ttl failure
  have hqueue := self.queue_putThrows hrunning now key value ttl failure
  constructor
  · rintro ⟨hbacked, hkept⟩
    rw [hqueue] at hbacked
    refine ⟨hbacked key _ hself, ?_, ?_⟩
    · intro other mapped hne hmapped
      refine hbacked other mapped ?_
      rw [self.lookup_putThrows_of_ne hrunning now key value ttl failure hne, hmapped]
    · intro mapped hmapped
      obtain ⟨still, hstill, hvalue⟩ := hkept mapped hmapped
      rw [hself, Option.some.injEq] at hstill
      rw [← hvalue, ← hstill]
  · rintro ⟨hpushed, hothers, hsame⟩
    refine ⟨?_, fun mapped hmapped => ⟨_, hself, hsame mapped hmapped⟩⟩
    intro other mapped hmapped
    rw [hqueue]
    by_cases hkey : other = key
    · subst hkey
      rw [hself, Option.some.injEq] at hmapped
      rw [← hmapped]
      exact hpushed
    · rw [self.lookup_putThrows_of_ne hrunning now key value ttl failure hkey] at hmapped
      exact hothers other mapped hkey hmapped

end Throwing

/-- With the new entry in it and the old ones kept, a heap that backed every mapping
goes on doing so. -/
theorem TExpiringCache.Matched.survives_iff {cache : TExpiringCache Q Value} (h : cache.Matched)
    {now : Int} {key : Key} {value : Value} {ttl : Int} {left : Q.Carrier}
    (hleft : Q.items left = cache.entryFor now key ttl ::ₘ Q.items cache.expirationQueue) :
    cache.Survives now key value ttl left ↔
      ∀ mapped, cache.lookupMap.lookup key = some mapped → value = mapped.value := by
  refine ⟨fun hsurvives => hsurvives.same, fun hsame => ⟨?_, ?_, hsame⟩⟩
  · rw [hleft]
    exact Multiset.mem_cons_self _ _
  · intro other mapped _ hmapped
    rw [hleft]
    exact Multiset.mem_cons_of_mem (h.live other mapped hmapped)

/-- Once the cache is stopping nothing changes it any more. -/
theorem TExpiringCache.afterAttempt_of_stopping {self : TExpiringCache Q Value}
    (hstopping : self.isStopping = true) (attempt : Attempt Key Value) :
    self.afterAttempt attempt = self := by
  cases attempt with
  | putThrew => exact if_pos hstopping
  | completed event =>
    obtain ⟨reading, call⟩ := event
    cases call with
    | get | size => rfl
    | sweep => exact if_pos hstopping
    | put | remove =>
      simp [TExpiringCache.afterAttempt, TExpiringCache.after, TExpiringCache.put,
        TExpiringCache.remove, hstopping]
    | stop =>
      show { self with isStopping := true } = self
      rw [← hstopping]

/-- The generations on the heap are none after the current one. -/
def TExpiringCache.Bounded (cache : TExpiringCache Q Value) : Prop :=
  ∀ entry ∈ Q.items cache.expirationQueue, entry.generation ≤ cache.currentGeneration

omit [DecidableEq Key] in
/-- Counting up, with nothing new on the heap but the new generation, keeps the bound. -/
theorem TExpiringCache.Bounded.succ {cache next : TExpiringCache Q Value} (h : cache.Bounded)
    (hroom : cache.currentGeneration.toNat + 1 < 2 ^ 64)
    (hgeneration : next.currentGeneration = cache.currentGeneration + 1)
    (hitems : ∀ entry ∈ Q.items next.expirationQueue,
      entry ∈ Q.items cache.expirationQueue ∨ entry.generation = cache.currentGeneration + 1) :
    next.Bounded := by
  intro entry hentry
  rw [hgeneration]
  rcases hitems entry hentry with hold | hnew
  · exact UInt64.le_of_lt (lt_succ_generation (h entry hold) hroom)
  · exact hnew ▸ UInt64.le_refl _

/-- An attempt keeps the generations below the current one, as long as the counter has room. -/
theorem TExpiringCache.Bounded.afterAttempt {cache : TExpiringCache Q Value} (h : cache.Bounded)
    (attempt : Attempt Key Value)
    (hroom : attempt.isPut = true → cache.currentGeneration.toNat + 1 < 2 ^ 64) :
    (cache.afterAttempt attempt).Bounded := by
  by_cases hstopping : cache.isStopping
  · exact (TExpiringCache.afterAttempt_of_stopping hstopping attempt).symm ▸ h
  · rw [Bool.not_eq_true] at hstopping
    cases attempt with
    | putThrew now key value ttl =>
      refine h.succ (hroom rfl) ?_ fun entry hentry => .inl ?_
      · simp [TExpiringCache.afterAttempt, TExpiringCache.putThrows, hstopping]
      · rwa [TExpiringCache.afterAttempt, cache.queue_putThrows hstopping] at hentry
    | completed event =>
      obtain ⟨reading, call⟩ := event
      cases call with
      | put key value ttl =>
        refine h.succ (hroom rfl) ?_ fun entry hentry => ?_
        · simp [TExpiringCache.afterAttempt, TExpiringCache.after, TExpiringCache.put, hstopping]
        · have hpushed : entry ∈ Q.items (cache.put reading key value ttl).1.expirationQueue := hentry
          rw [cache.items_put hstopping, Multiset.mem_cons] at hpushed
          exact hpushed.symm.imp_right fun heq => by rw [heq]
      | sweep =>
        intro entry hentry
        have hleft : entry ∈ Q.items (cache.sweep reading).expirationQueue := by
          simpa [TExpiringCache.afterAttempt, TExpiringCache.after, hstopping] using hentry
        rw [cache.items_sweep] at hleft
        have hle := h entry (Multiset.mem_of_mem_filter hleft)
        simpa [TExpiringCache.afterAttempt, TExpiringCache.after, TExpiringCache.sweep,
          hstopping] using hle
      | get | size | stop => exact h
      | remove key =>
        simpa [TExpiringCache.Bounded, TExpiringCache.afterAttempt, TExpiringCache.after,
          TExpiringCache.remove, hstopping] using h

/-- An attempt moves the counter by one at most, and only if it is a put. -/
theorem TExpiringCache.generation_afterAttempt (cache : TExpiringCache Q Value)
    (attempt : Attempt Key Value) :
    (cache.afterAttempt attempt).currentGeneration.toNat ≤
      cache.currentGeneration.toNat + if attempt.isPut then 1 else 0 := by
  cases attempt with
  | completed event => exact cache.generation_after event
  | putThrew now key value ttl =>
    unfold TExpiringCache.afterAttempt TExpiringCache.putThrows
    by_cases hstopping : cache.isStopping
    · simp [hstopping]
    · simp only [hstopping, Bool.false_eq_true, ↓reduceIte, Attempt.isPut, UInt64.toNat_add,
        UInt64.toNat_one]
      exact Nat.mod_le _ _

/-- Below 2^64 attempts to put, the counter does not wrap. -/
theorem TExpiringCache.bounded_afterAttempts (attempts : List (Attempt Key Value))
    (hputs : attempts.countP Attempt.isPut < 2 ^ 64) :
    (TExpiringCache.afterAttempts Q attempts).Bounded ∧
      (TExpiringCache.afterAttempts Q attempts).currentGeneration.toNat ≤
        attempts.countP Attempt.isPut := by
  induction attempts using List.reverseRecOn with
  | nil =>
    refine ⟨fun entry hentry => ?_, by simp [TExpiringCache.afterAttempts]⟩
    simp [TExpiringCache.afterAttempts, Q.items_empty] at hentry
  | append_singleton attempts attempt ih =>
    have hcount := @List.countP_append _ Attempt.isPut attempts [attempt]
    rw [List.countP_singleton] at hcount
    obtain ⟨hbounded, hgeneration⟩ := ih (by omega)
    have hnext := (TExpiringCache.afterAttempts Q attempts).generation_afterAttempt attempt
    rw [TExpiringCache.afterAttempts_append]
    refine ⟨hbounded.afterAttempt attempt fun hput => ?_, by omega⟩
    rw [if_pos hput] at hcount
    omega

/-- The key is mapped, but no heap entry leads a sweep to the mapping. -/
def TExpiringCache.Orphaned (cache : TExpiringCache Q Value) (key : Key)
    (mapped : MapEntry Value) : Prop :=
  cache.lookupMap.lookup key = some mapped ∧
    ∀ entry ∈ Q.items cache.expirationQueue, ¬ (entry.key = key ∧ entry.generation = mapped.generation)

/-- Whatever happens to other keys, sweeps included, leaves an orphaned mapping alone. -/
theorem TExpiringCache.Orphaned.afterAttempt {cache : TExpiringCache Q Value} {key : Key}
    {mapped : MapEntry Value} (h : cache.Orphaned key mapped) (attempt : Attempt Key Value)
    (hwrites : attempt.writes key = false) : (cache.afterAttempt attempt).Orphaned key mapped := by
  obtain ⟨hlookup, hnone⟩ := h
  by_cases hstopping : cache.isStopping
  · exact (TExpiringCache.afterAttempt_of_stopping hstopping attempt).symm ▸ ⟨hlookup, hnone⟩
  · rw [Bool.not_eq_true] at hstopping
    cases attempt with
    | putThrew now target value ttl =>
      have hne : key ≠ target := by
        rintro rfl
        simp [Attempt.writes] at hwrites
      refine ⟨?_, fun entry hentry => hnone entry ?_⟩
      · rw [TExpiringCache.afterAttempt, cache.lookup_putThrows_of_ne hstopping _ _ _ _ _ hne]
        exact hlookup
      · rwa [TExpiringCache.afterAttempt, cache.queue_putThrows hstopping] at hentry
    | completed event =>
      obtain ⟨reading, call⟩ := event
      cases call with
      | put target value ttl =>
        have hne : key ≠ target := by
          rintro rfl
          simp [Attempt.writes, TimedCall.writes] at hwrites
        refine ⟨?_, fun entry hentry => ?_⟩
        · simpa [TExpiringCache.afterAttempt, TExpiringCache.after, TExpiringCache.put, hstopping,
            hne] using hlookup
        · have hpushed : entry ∈ Q.items (cache.put reading target value ttl).1.expirationQueue :=
            hentry
          rw [cache.items_put hstopping, Multiset.mem_cons] at hpushed
          rcases hpushed with rfl | hold
          · rintro ⟨htarget, _⟩
            exact hne htarget.symm
          · exact hnone entry hold
      | remove target =>
        have hne : key ≠ target := by
          rintro rfl
          simp [Attempt.writes, TimedCall.writes] at hwrites
        simpa [TExpiringCache.Orphaned, TExpiringCache.afterAttempt, TExpiringCache.after,
          TExpiringCache.remove, hstopping, hne] using And.intro hlookup hnone
      | get | size | stop => exact ⟨hlookup, hnone⟩
      | sweep =>
        have hafter : cache.afterAttempt (.completed ⟨reading, .sweep⟩) = cache.sweep reading := by
          simp [TExpiringCache.afterAttempt, TExpiringCache.after, hstopping]
        rw [hafter]
        refine ⟨?_, fun entry hentry => hnone entry ?_⟩
        · rw [cache.lookup_sweep_eq, hlookup, Option.filter_some, if_pos]
          rw [decide_eq_true_eq]
          exact fun expired hexpired _ => hnone expired hexpired
        · rw [cache.items_sweep] at hentry
          exact Multiset.mem_of_mem_filter hentry

/-- An orphaned mapping stays so until the key is written again. -/
theorem TExpiringCache.Orphaned.afterAttempts {cache : TExpiringCache Q Value} {key : Key}
    {mapped : MapEntry Value} (h : cache.Orphaned key mapped) (later : List (Attempt Key Value))
    (hlater : ∀ attempt ∈ later, attempt.writes key = false) :
    (later.foldl TExpiringCache.afterAttempt cache).Orphaned key mapped := by
  induction later generalizing cache with
  | nil => exact h
  | cons attempt later ih =>
    rw [List.foldl_cons]
    exact ih (h.afterAttempt attempt (hlater attempt List.mem_cons_self))
      fun other hother => hlater other (List.mem_cons_of_mem _ hother)

/-- A put that fails midway. Wherever the push throws, the put is safe exactly if
what is left of the heap has the entry that was to be pushed and backs every other
mapping, and the value under the key is the one it had. If nothing was pushed, that
takes 2^64 puts before it; until then the mapping stays, whatever follows, short of
another write to its key. If the entry was pushed and no put has failed before, only
an overwrite by another value is unsafe. -/
theorem TExpiringCache.put_throws (attempts : List (Attempt Key Value))
    (hrunning : (TExpiringCache.afterAttempts Q attempts).isStopping = false) (now : Int)
    (key : Key) (value : Value) (ttl : Int) :
    let cache := TExpiringCache.afterAttempts Q attempts
    (∀ failure, cache.ExceptionSafe (cache.putThrows now key value ttl failure) key ↔
      cache.Survives now key value ttl (failure.leaves cache.expirationQueue)) ∧
    (attempts.countP Attempt.isPut + 1 < 2 ^ 64 →
      ¬ cache.ExceptionSafe (cache.putThrows now key value ttl .pushing) key ∧
      (∀ later : List (Attempt Key Value), (∀ attempt ∈ later, attempt.writes key = false) →
        (later.foldl TExpiringCache.afterAttempt
          (cache.putThrows now key value ttl .pushing)).lookupMap.lookup key =
            some ⟨⟨expirationAt now ttl, cache.currentGeneration + 1⟩, value⟩) ∧
      ∀ history : List (TimedCall Key Value), attempts = history.map .completed → ∀ left,
        Q.items left = cache.entryFor now key ttl ::ₘ Q.items cache.expirationQueue →
        (cache.ExceptionSafe (cache.putThrows now key value ttl (.sifting left)) key ↔
          ∀ mapped, cache.lookupMap.lookup key = some mapped → value = mapped.value)) := by
  intro cache
  have hiff := cache.exceptionSafe_iff hrunning now key value ttl
  refine ⟨hiff, fun hputs => ?_⟩
  obtain ⟨hbounded, hgeneration⟩ := TExpiringCache.bounded_afterAttempts (Q := Q) attempts (by omega)
  have hroom : cache.currentGeneration.toNat + 1 < 2 ^ 64 := by
    show (TExpiringCache.afterAttempts Q attempts).currentGeneration.toNat + 1 < 2 ^ 64
    omega
  have hfresh : ∀ entry ∈ Q.items cache.expirationQueue,
      entry.generation ≠ cache.currentGeneration + 1 := fun entry hentry =>
    UInt64.ne_of_lt (lt_succ_generation (hbounded entry hentry) hroom)
  refine ⟨?_, ?_, ?_⟩
  · intro hsafe
    exact hfresh _ ((hiff .pushing).mp hsafe).pushed rfl
  · intro later hlater
    have horphaned : (cache.putThrows now key value ttl .pushing).Orphaned key
        ⟨⟨expirationAt now ttl, cache.currentGeneration + 1⟩, value⟩ := by
      refine ⟨cache.lookup_putThrows_self hrunning now key value ttl .pushing, ?_⟩
      rintro entry hentry ⟨_, hsame⟩
      rw [cache.queue_putThrows hrunning now key value ttl .pushing] at hentry
      exact hfresh entry hentry hsame
    exact (horphaned.afterAttempts later hlater).1
  · intro history hhistory left hleft
    have hmatched : cache.Matched := by
      show (TExpiringCache.afterAttempts Q attempts).Matched
      rw [hhistory, TExpiringCache.afterAttempts_completed]
      apply TExpiringCache.matched_afterAll
      rw [hhistory, List.countP_map] at hputs
      exact lt_trans (Nat.lt_succ_self _) hputs
    exact (hiff (.sifting left)).trans (hmatched.survives_iff hleft)

/-- An overwrite fails. If nothing was pushed, a sweep long after the new deadline
leaves the key mapped; if the new entry was, the old value is lost all the same. -/
theorem put_throws_overwrite :
    ((TExpiringCache.afterAttempts (PriorityQueue.sorted (@HeapEntry.NotAfter Nat))
      [.completed ⟨0, .put 1 "old" 1⟩, .putThrew 10 1 "new" 5,
        .completed ⟨9000000, .sweep⟩]).lookupMap.lookup 1) = some ⟨⟨5000010, 2⟩, "new"⟩ ∧
    let cache := TExpiringCache.afterAttempts (PriorityQueue.sorted (@HeapEntry.NotAfter Nat))
      [.completed ⟨0, .put 1 "old" 1⟩]
    let pushed := PriorityQueue.push _ cache.expirationQueue (cache.entryFor 10 1 5)
    ¬ cache.ExceptionSafe (cache.putThrows 10 1 "new" 5 (.sifting pushed)) 1 ∧
      cache.ExceptionSafe (cache.putThrows 10 1 "old" 5 (.sifting pushed)) 1 := by
  have hthrows (value : String) := TExpiringCache.put_throws
    (Q := PriorityQueue.sorted (@HeapEntry.NotAfter Nat)) [.completed ⟨0, .put 1 "old" 1⟩]
    (by decide) 10 1 value 5
  refine ⟨((hthrows "new").2 (by decide)).2.1 [.completed ⟨9000000, .sweep⟩] (by decide), ?_, ?_⟩
  · rw [((hthrows "new").2 (by decide)).2.2 [_] rfl _ (PriorityQueue.items_push _ _ _)]
    intro hsame
    exact absurd (hsame ⟨⟨1000000, 1⟩, "old"⟩ (by decide)) (by decide)
  · rw [((hthrows "old").2 (by decide)).2.2 [_] rfl _ (PriorityQueue.items_push _ _ _)]
    intro mapped hmapped
    have hold : some mapped = some (⟨⟨1000000, 1⟩, "old"⟩ : MapEntry String) :=
      hmapped.symm.trans (by decide)
    rw [Option.some.inj hold]

/-- The first put of a new cache fails. -/
theorem not_exceptionSafe_empty :
    ¬ ({} : TExpiringCache (PriorityQueue.sorted (@HeapEntry.NotAfter Nat)) String).ExceptionSafe
      (({} : TExpiringCache _ String).putThrows 0 1 "value" 1 .pushing) 1 := by
  intro hsafe
  have hbacked := hsafe.backed 1 ⟨⟨1000000, 1⟩, "value"⟩ (by decide)
  revert hbacked
  decide

end spdlogger.expiring_cache
