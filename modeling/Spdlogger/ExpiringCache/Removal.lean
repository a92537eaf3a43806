import Spdlogger.ExpiringCache.Eviction

namespace spdlogger.expiring_cache

variable {Key Value Tid : Type} [DecidableEq Key] [DecidableEq Tid] {Q : ExpirationQueue Key}

/-- No stop has taken effect, and the last write to the key was a put whose
expiration lies ahead. -/
def Live (now : Int) (key : Key) (history : List (TimedCall Key Value)) : Prop :=
  (∀ event ∈ history, event.call ≠ .stop) ∧
    ∃ reading value ttl, lastWrite key history = some ⟨reading, .put key value ttl⟩ ∧
      now < expirationAt reading ttl

/-- The last write to the key was a put with this expiration, and every sweep since
was too early for it. -/
def HeldUntil (key : Key) (history : List (TimedCall Key Value)) (expiration : Int) : Prop :=
  ∃ before reading value ttl later, history = before ++ ⟨reading, .put key value ttl⟩ :: later ∧
    expirationAt reading ttl = expiration ∧
    ∀ event ∈ later, event.writes key = false ∧ (event.isSweep = true → event.reading < expiration)

/-- A write to the key decides alone how long it is held. -/
theorem heldUntil_append_of_writes {key : Key} {event : TimedCall Key Value}
    (hwrites : event.writes key = true) (history : List (TimedCall Key Value)) (expiration : Int) :
    HeldUntil key (history ++ [event]) expiration ↔
      ∃ reading value ttl, event = ⟨reading, .put key value ttl⟩ ∧
        expirationAt reading ttl = expiration := by
  constructor
  · rintro ⟨before, reading, value, ttl, later, hsplit, hexpiration, hlater⟩
    rcases List.eq_nil_or_concat later with rfl | ⟨rest, last, rfl⟩
    · obtain ⟨_, hlast⟩ := List.append_inj' hsplit rfl
      exact ⟨reading, value, ttl, List.singleton_inj.mp hlast, hexpiration⟩
    · have hassoc : history ++ [event] =
          (before ++ ⟨reading, .put key value ttl⟩ :: rest) ++ [last] := by simpa using hsplit
      obtain ⟨_, hlast⟩ := List.append_inj' hassoc rfl
      have hnot := (hlater last (by simp)).1
      rw [← List.singleton_inj.mp hlast, hwrites] at hnot
      cases hnot
  · rintro ⟨reading, value, ttl, rfl, hexpiration⟩
    exact ⟨history, reading, value, ttl, [], rfl, hexpiration, by simp⟩

/-- Any other call ends the hold only if it is a sweep that is late enough. -/
theorem heldUntil_append_of_not_writes {key : Key} {event : TimedCall Key Value}
    (hwrites : event.writes key = false) (history : List (TimedCall Key Value)) (expiration : Int) :
    HeldUntil key (history ++ [event]) expiration ↔
      HeldUntil key history expiration ∧ (event.isSweep = true → event.reading < expiration) := by
  constructor
  · rintro ⟨before, reading, value, ttl, later, hsplit, hexpiration, hlater⟩
    rcases List.eq_nil_or_concat later with rfl | ⟨rest, last, rfl⟩
    · obtain ⟨_, hlast⟩ := List.append_inj' hsplit rfl
      rw [List.singleton_inj.mp hlast] at hwrites
      simp [TimedCall.writes] at hwrites
    · have hassoc : history ++ [event] =
          (before ++ ⟨reading, .put key value ttl⟩ :: rest) ++ [last] := by simpa using hsplit
      obtain ⟨hhistory, hlast⟩ := List.append_inj' hassoc rfl
      obtain rfl := List.singleton_inj.mp hlast
      refine ⟨⟨before, reading, value, ttl, rest, hhistory, hexpiration, ?_⟩, ?_⟩
      · exact fun other hother => hlater other (by simp [hother])
      · exact (hlater event (by simp)).2
  · rintro ⟨⟨before, reading, value, ttl, later, rfl, hexpiration, hlater⟩, hsweep⟩
    refine ⟨before, reading, value, ttl, later ++ [event], by simp, hexpiration, ?_⟩
    intro other hother
    rcases List.mem_append.mp hother with hold | hlast
    · exact hlater other hold
    · rw [List.mem_singleton.mp hlast]
      exact ⟨hwrites, hsweep⟩

/-- A sweep no later than `now` is too early for an expiration after it. -/
theorem heldUntil_iff_lastWrite {key : Key} {history : List (TimedCall Key Value)}
    {now expiration : Int} (hpast : ∀ event ∈ history, event.reading ≤ now)
    (hfuture : now < expiration) :
    HeldUntil key history expiration ↔
      ∃ reading value ttl, lastWrite key history = some ⟨reading, .put key value ttl⟩ ∧
        expirationAt reading ttl = expiration := by
  induction history using List.reverseRecOn with
  | nil => simp [HeldUntil, lastWrite]
  | append_singleton history event ih =>
    simp only [List.mem_append, List.mem_singleton, or_imp, forall_and, forall_eq] at hpast
    by_cases hwrites : event.writes key = true
    · rw [heldUntil_append_of_writes hwrites, lastWrite_append_of_writes hwrites]
      simp only [Option.some.injEq]
    · rw [Bool.not_eq_true] at hwrites
      rw [heldUntil_append_of_not_writes hwrites, lastWrite_append_of_not_writes hwrites, ih hpast.1]
      refine and_iff_left fun _ => ?_
      have := hpast.2
      omega

/-- Only a stop sets the flag, and nothing resets it. -/
theorem TExpiringCache.isStopping_after (cache : TExpiringCache Q Value)
    (event : TimedCall Key Value) :
    (cache.after event).isStopping = false ↔ cache.isStopping = false ∧ event.call ≠ .stop := by
  obtain ⟨reading, call⟩ := event
  cases call with
  | put key value ttl => simp [TExpiringCache.after, TExpiringCache.isStopping_put]
  | remove key =>
    have hkeeps : (cache.remove key).1.isStopping = cache.isStopping := by
      unfold TExpiringCache.remove
      split <;> rfl
    simp [TExpiringCache.after, hkeeps]
  | sweep =>
    have hkeeps : (cache.sweep reading).isStopping = cache.isStopping := rfl
    by_cases hstopping : cache.isStopping <;> simp [TExpiringCache.after, hkeeps, hstopping]
  | get | size | stop => simp [TExpiringCache.after, TExpiringCache.setStopping]

/-- The flag is set exactly when a stop has been called. -/
theorem TExpiringCache.isStopping_afterAll (history : List (TimedCall Key Value)) :
    (TExpiringCache.afterAll Q history).isStopping = false ↔
      ∀ event ∈ history, event.call ≠ .stop := by
  induction history using List.reverseRecOn with
  | nil => simp [TExpiringCache.afterAll]
  | append_singleton history event ih =>
    rw [TExpiringCache.afterAll_append, TExpiringCache.isStopping_after, ih]
    simp [or_imp, forall_and]

/-- A mapping is what is held for its key. -/
theorem TExpiringCache.lookup_afterAll_iff {history : List (TimedCall Key Value)}
    (hputs : history.countP TimedCall.isPut < 2 ^ 64)
    (hrunning : (TExpiringCache.afterAll Q history).isStopping = false) (key : Key)
    (expiration : Int) :
    (∃ mapped, (TExpiringCache.afterAll Q history).lookupMap.lookup key = some mapped ∧
      mapped.expiration = expiration) ↔ HeldUntil key history expiration := by
  induction history using List.reverseRecOn with
  | nil => simp [HeldUntil, TExpiringCache.afterAll]
  | append_singleton history event ih =>
    have hcount := @List.countP_append _ TimedCall.isPut history [event]
    rw [TExpiringCache.afterAll_append, TExpiringCache.isStopping_after] at hrunning
    have hheld := ih (by omega) hrunning.1
    have hmatched := TExpiringCache.matched_afterAll (Q := Q) history (by omega)
    rw [TExpiringCache.afterAll_append]
    by_cases hwrites : event.writes key = true
    · rw [heldUntil_append_of_writes hwrites]
      obtain ⟨reading, call⟩ := event
      cases call with
      | put target value ttl =>
        obtain rfl : target = key := by simpa [TimedCall.writes] using hwrites
        simp [TExpiringCache.after, TExpiringCache.put, hrunning.1]
      | remove target =>
        obtain rfl : target = key := by simpa [TimedCall.writes] using hwrites
        simp [TExpiringCache.after, TExpiringCache.remove, hrunning.1]
      | get | size | stop | sweep => simp [TimedCall.writes] at hwrites
    · rw [Bool.not_eq_true] at hwrites
      rw [heldUntil_append_of_not_writes hwrites, ← hheld]
      obtain ⟨reading, call⟩ := event
      cases call with
      | put target value ttl =>
        have hne : key ≠ target := by
          rintro rfl
          simp [TimedCall.writes] at hwrites
        simp [TExpiringCache.after, TExpiringCache.put, hrunning.1, hne, TimedCall.isSweep]
      | remove target =>
        have hne : key ≠ target := by
          rintro rfl
          simp [TimedCall.writes] at hwrites
        simp [TExpiringCache.after, TExpiringCache.remove, hrunning.1, hne, TimedCall.isSweep]
      | sweep =>
        have hafter : (TExpiringCache.afterAll Q history).after ⟨reading, .sweep⟩ =
            (TExpiringCache.afterAll Q history).sweep reading := by
          simp [TExpiringCache.after, hrunning.1]
        rw [hafter, hmatched.lookup_sweep reading key]
        simp only [Option.filter_eq_some_iff, decide_eq_true_eq, TimedCall.isSweep, forall_const]
        constructor
        · rintro ⟨mapped, ⟨hmapped, hfuture⟩, rfl⟩
          exact ⟨⟨mapped, hmapped, rfl⟩, hfuture⟩
        · rintro ⟨⟨mapped, hmapped, rfl⟩, hfuture⟩
          exact ⟨mapped, ⟨hmapped, hfuture⟩, rfl⟩
      | get | size | stop => simp [TExpiringCache.after, TExpiringCache.setStopping, TimedCall.isSweep]

/-- The key is still mapped although its expiration has been reached. -/
def TExpiringCache.Lingers (cache : TExpiringCache Q Value) (now : Int) (key : Key) : Prop :=
  cache.isStopping = false ∧
    ∃ mapped, cache.lookupMap.lookup key = some mapped ∧ mapped.expiration ≤ now

/-- A remove succeeds on what a get finds and on what lingers. -/
theorem TExpiringCache.remove_iff (self : TExpiringCache Q Value) (now : Int) (key : Key) :
    (self.remove key).2.1 = true ↔ (self.get now key).isSome = true ∨ self.Lingers now key := by
  unfold TExpiringCache.Lingers
  cases hstopping : self.isStopping with
  | true => simp [TExpiringCache.remove, TExpiringCache.get, hstopping]
  | false =>
    rw [TExpiringCache.get_isSome_iff hstopping]
    simp only [TExpiringCache.remove, hstopping, Bool.false_eq_true, if_false, true_and,
      Option.isSome_iff_exists, ← exists_or, ← and_or_left]
    refine exists_congr fun mapped => (and_iff_left ?_).symm
    exact lt_or_ge now mapped.expiration

/-- What a get finds does not linger. -/
theorem TExpiringCache.not_lingers_of_get {self : TExpiringCache Q Value} {now : Int} {key : Key}
    (hget : (self.get now key).isSome = true) : ¬ self.Lingers now key := by
  rintro ⟨hrunning, mapped, hmapped, hdue⟩
  obtain ⟨same, hsame, hfuture⟩ := (TExpiringCache.get_isSome_iff hrunning now key).mp hget
  obtain rfl := Option.some.inj (hmapped.symm.trans hsame)
  omega

/-- A remove and a get agree on a key exactly when it does not linger. -/
theorem TExpiringCache.remove_agrees_iff (self : TExpiringCache Q Value) (now : Int) (key : Key) :
    ((self.remove key).2.1 = true ↔ (self.get now key).isSome = true) ↔
      ¬ self.Lingers now key := by
  rw [self.remove_iff now key]
  constructor
  · intro hagree hlingers
    exact TExpiringCache.not_lingers_of_get (hagree.mp (.inr hlingers)) hlingers
  · exact fun hnot => or_iff_left hnot

/-- Two caches that `get` cannot tell apart differ for `remove` in what lingers. -/
theorem TExpiringCache.remove_eq_iff {self other : TExpiringCache Q Value} {now : Int} {key : Key}
    (hget : (other.get now key).isSome = true ↔ (self.get now key).isSome = true) :
    (other.remove key).2.1 = (self.remove key).2.1 ↔
      (other.Lingers now key ↔ self.Lingers now key) := by
  rw [Bool.eq_iff_iff, self.remove_iff now key, other.remove_iff now key, hget]
  by_cases hgot : (self.get now key).isSome = true
  · have hnot := TExpiringCache.not_lingers_of_get hgot
    have hnotOther := TExpiringCache.not_lingers_of_get (hget.mpr hgot)
    simp [hgot, hnot, hnotOther]
  · simp [hgot]

/-- `get` sees what is live. -/
theorem TExpiringCache.get_iff_live {history : List (TimedCall Key Value)}
    (hputs : history.countP TimedCall.isPut < 2 ^ 64) {now : Int}
    (hpast : ∀ event ∈ history, event.reading ≤ now) (key : Key) :
    ((TExpiringCache.afterAll Q history).get now key).isSome = true ↔ Live now key history := by
  unfold Live
  rw [← TExpiringCache.isStopping_afterAll (Q := Q)]
  cases hstopping : (TExpiringCache.afterAll Q history).isStopping with
  | true => simp [TExpiringCache.get, hstopping]
  | false =>
    rw [TExpiringCache.get_isSome_iff hstopping]
    have hheld := TExpiringCache.lookup_afterAll_iff hputs hstopping key
    simp only [true_and]
    constructor
    · rintro ⟨mapped, hmapped, hfuture⟩
      obtain ⟨reading, value, ttl, hlast, hexpiration⟩ :=
        (heldUntil_iff_lastWrite hpast hfuture).mp ((hheld _).mp ⟨mapped, hmapped, rfl⟩)
      exact ⟨reading, value, ttl, hlast, hexpiration ▸ hfuture⟩
    · rintro ⟨reading, value, ttl, hlast, hfuture⟩
      obtain ⟨mapped, hmapped, hexpiration⟩ := (hheld _).mpr
        ((heldUntil_iff_lastWrite hpast hfuture).mpr ⟨reading, value, ttl, hlast, rfl⟩)
      exact ⟨mapped, hmapped, hexpiration.symm ▸ hfuture⟩

/-- What lingers was put to expire by `now` and has not been swept since. -/
theorem TExpiringCache.lingers_iff {history : List (TimedCall Key Value)}
    (hputs : history.countP TimedCall.isPut < 2 ^ 64) (now : Int) (key : Key) :
    (TExpiringCache.afterAll Q history).Lingers now key ↔
      (∀ event ∈ history, event.call ≠ .stop) ∧
        ∃ expiration ≤ now, HeldUntil key history expiration := by
  unfold TExpiringCache.Lingers
  rw [← TExpiringCache.isStopping_afterAll (Q := Q)]
  refine and_congr_right fun hrunning => ?_
  have hheld := TExpiringCache.lookup_afterAll_iff hputs hrunning key
  constructor
  · rintro ⟨mapped, hmapped, hdue⟩
    exact ⟨_, hdue, (hheld _).mp ⟨mapped, hmapped, rfl⟩⟩
  · rintro ⟨expiration, hdue, hhold⟩
    obtain ⟨mapped, hmapped, hexpiration⟩ := (hheld _).mpr hhold
    exact ⟨mapped, hmapped, hexpiration.symm ▸ hdue⟩

/-- The same calls at the same readings, whenever the handler sweeps. -/
def SameCalls (history other : List (TimedCall Key Value)) : Prop :=
  (history.filter fun event => !event.isSweep) = other.filter fun event => !event.isSweep

omit [DecidableEq Key] in
/-- A history with the same calls has no stop either. -/
theorem SameCalls.forall_ne_stop {history other : List (TimedCall Key Value)}
    (hsame : SameCalls history other) (hrunning : ∀ event ∈ history, event.call ≠ .stop) :
    ∀ event ∈ other, event.call ≠ .stop := by
  intro event hevent hstop
  have hkept : event ∈ other.filter fun event => !event.isSweep :=
    List.mem_filter.mpr ⟨hevent, by simp [TimedCall.isSweep, hstop]⟩
  rw [← hsame] at hkept
  exact hrunning event (List.mem_of_mem_filter hkept) hstop

theorem lastWrite_filter_sweeps (key : Key) (history : List (TimedCall Key Value)) :
    lastWrite key (history.filter fun event => !event.isSweep) = lastWrite key history := by
  unfold lastWrite
  rw [List.filter_filter]
  congr 2
  funext event
  obtain ⟨reading, call⟩ := event
  cases call <;> simp [TimedCall.writes, TimedCall.isSweep]

omit [DecidableEq Key] in
theorem countP_isPut_filter_sweeps (history : List (TimedCall Key Value)) :
    (history.filter fun event => !event.isSweep).countP TimedCall.isPut =
      history.countP TimedCall.isPut := by
  rw [List.countP_filter]
  congr 1
  funext event
  obtain ⟨reading, call⟩ := event
  cases call <;> simp [TimedCall.isPut, TimedCall.isSweep]

/-- What is live does not depend on the sweeps. -/
theorem SameCalls.live {history other : List (TimedCall Key Value)} (hsame : SameCalls history other)
    {now : Int} {key : Key} (hlive : Live now key history) : Live now key other := by
  obtain ⟨hrunning, reading, value, ttl, hlast, hfuture⟩ := hlive
  refine ⟨hsame.forall_ne_stop hrunning, reading, value, ttl, ?_, hfuture⟩
  rw [← lastWrite_filter_sweeps, ← hsame, lastWrite_filter_sweeps, hlast]

/-- `remove` agrees with `get` unless the key lingers, that is, the last write put it with an
expiration that has been reached and no sweep has come since. Two runs with the same calls get
the same answer if the key lingers in both or in neither. -/
theorem State.remove_reveals_sweeps {s : State Q Value Tid}
    (hreach : (cacheMachine Q Value Tid).Reachable s) (key : Key) :
    (((s.cache.remove key).2.1 = true ↔ (s.cache.get s.clock key).isSome = true) ↔
      ¬ s.cache.Lingers s.clock key) ∧
    (s.history.countP TimedCall.isPut < 2 ^ 64 →
      ((s.cache.get s.clock key).isSome = true ↔ Live s.clock key s.history) ∧
      (s.cache.Lingers s.clock key ↔ (∀ event ∈ s.history, event.call ≠ .stop) ∧
        ∃ expiration ≤ s.clock, HeldUntil key s.history expiration) ∧
      ∀ other : State Q Value Tid, (cacheMachine Q Value Tid).Reachable other →
        other.clock = s.clock → SameCalls s.history other.history →
        ((other.cache.remove key).2.1 = (s.cache.remove key).2.1 ↔
          (other.cache.Lingers s.clock key ↔ s.cache.Lingers s.clock key))) := by
  refine ⟨s.cache.remove_agrees_iff s.clock key, fun hputs => ?_⟩
  have hrecorded := recorded_of_reachable hreach
  have hget := TExpiringCache.get_iff_live (Q := Q) hputs hrecorded.past key
  have hlingers := TExpiringCache.lingers_iff (Q := Q) hputs s.clock key
  rw [← hrecorded.cache_eq] at hget hlingers
  refine ⟨hget, hlingers, fun other hreachOther hclock hsame => ?_⟩
  have hrecordedOther := recorded_of_reachable hreachOther
  have hputsOther : other.history.countP TimedCall.isPut < 2 ^ 64 := by
    rw [← countP_isPut_filter_sweeps, ← hsame, countP_isPut_filter_sweeps]
    exact hputs
  have hgetOther := TExpiringCache.get_iff_live (Q := Q) hputsOther hrecordedOther.past key
  rw [← hrecordedOther.cache_eq, hclock] at hgetOther
  have hlive : Live s.clock key s.history ↔ Live s.clock key other.history :=
    ⟨hsame.live, SameCalls.live hsame.symm⟩
  exact TExpiringCache.remove_eq_iff (hgetOther.trans (hlive.symm.trans hget.symm))

/-- Before the expiration `remove` agrees with `get`. -/
theorem remove_reveals_sweeps_live :
    ∃ s : State (PriorityQueue.sorted (@HeapEntry.NotAfter Nat)) String Unit,
      (cacheMachine _ String Unit).Reachable s ∧ s.history = [⟨0, .put 7 "value" 1⟩] ∧
      ((s.cache.remove 7).2.1 = true ↔ (s.cache.get s.clock 7).isSome = true) := by
  obtain ⟨s, hreach, hcheck⟩ := transition.Machine.exists_reachable_of_run
    (M := cacheMachine (PriorityQueue.sorted (@HeapEntry.NotAfter Nat)) String Unit)
    (s := { clock := 0 }) ⟨0, rfl⟩ [.put 7 "value" 1]
    (fun s => s.history = [⟨0, .put 7 "value" 1⟩] ∧ s.clock = 0 ∧
      s.cache.lookupMap.lookup 7 = some ⟨⟨1000000, 1⟩, "value"⟩) (by decide)
  simp only [decide_eq_true_eq] at hcheck
  obtain ⟨hhistory, hclock, hmapped⟩ := hcheck
  refine ⟨s, hreach, hhistory, (State.remove_reveals_sweeps hreach 7).1.mpr ?_⟩
  rintro ⟨_, mapped, hsame, hdue⟩
  obtain rfl := Option.some.inj (hmapped.symm.trans hsame)
  rw [hclock] at hdue
  revert hdue
  decide

/-- Two milliseconds after a put for one, `remove` tells a run in which the handler has
been scheduled from one in which it has not. -/
theorem exists_remove_distinguishes_sweeps :
    ∃ s other : State (PriorityQueue.sorted (@HeapEntry.NotAfter Nat)) String Unit,
      (cacheMachine _ String Unit).Reachable s ∧ (cacheMachine _ String Unit).Reachable other ∧
      s.clock = other.clock ∧ SameCalls s.history other.history ∧
      s.cache.get s.clock 7 = none ∧ (s.cache.remove 7).2.1 = true ∧
      (other.cache.remove 7).2.1 = false := by
  obtain ⟨s, hreach, hcheck⟩ := transition.Machine.exists_reachable_of_run
    (M := cacheMachine (PriorityQueue.sorted (@HeapEntry.NotAfter Nat)) String Unit)
    (s := { clock := 0 }) ⟨0, rfl⟩ [.put 7 "value" 1, .tick 2000000]
    (fun s => s.history = [⟨0, .put 7 "value" 1⟩] ∧ s.clock = 2000000 ∧
      s.cache.get s.clock 7 = none ∧ (s.cache.remove 7).2.1 = true) (by decide)
  obtain ⟨late, hreachLate, hcheckLate⟩ := transition.Machine.exists_reachable_of_run
    (M := cacheMachine (PriorityQueue.sorted (@HeapEntry.NotAfter Nat)) String Unit)
    (s := { clock := 0 }) ⟨0, rfl⟩
    [.put 7 "value" 1, .tick 2000000, .handlerStep, .handlerStep, .handlerStep]
    (fun s => s.history = [⟨0, .put 7 "value" 1⟩] ∧ s.clock = 2000000 ∧ s.handler = .returned ∧
      s.cache.isStopping = false ∧
      s.cache.lookupMap.lookup 7 = some ⟨⟨1000000, 1⟩, "value"⟩) (by decide)
  simp only [decide_eq_true_eq] at hcheck hcheckLate
  obtain ⟨hhistory, hclock, hget, hremove⟩ := hcheck
  obtain ⟨hhistoryLate, hclockLate, hreturned, hrunning, hmapped⟩ := hcheckLate
  have hsweep : (cacheMachine (PriorityQueue.sorted (@HeapEntry.NotAfter Nat)) String Unit).step late
      .handlerStep = some { late with
        cache := late.cache.sweep late.clock
        handler := .computing
        history := late.record .sweep } := by
    show late.handlerStep = _
    unfold State.handlerStep
    rw [hreturned]
    exact if_neg (by simp [hrunning])
  have hmatched := TExpiringCache.matched_afterAll
    (Q := PriorityQueue.sorted (@HeapEntry.NotAfter Nat)) late.history
    (by rw [hhistoryLate]; decide)
  rw [← (recorded_of_reachable hreachLate).cache_eq] at hmatched
  refine ⟨s, _, hreach, hreachLate.step hsweep, hclock.trans hclockLate.symm, ?_, hget, hremove, ?_⟩
  · show SameCalls s.history (late.record .sweep)
    rw [SameCalls, State.record, hhistory, hhistoryLate]
    rfl
  · have hswept : (late.cache.sweep late.clock).lookupMap.lookup 7 = none := by
      rw [hmatched.lookup_sweep, hmapped, hclockLate]
      rfl
    show ((late.cache.sweep late.clock).remove 7).2.1 = false
    unfold TExpiringCache.remove
    rw [hswept]
    split <;> rfl

end spdlogger.expiring_cache
