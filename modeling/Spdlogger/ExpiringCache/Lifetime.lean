import Spdlogger.ExpiringCache.Data

namespace spdlogger.expiring_cache

/-- The nanoseconds of a ttl that are left after the conversion, from zero on. -/
def nanosecondsOf (ttl : Int) : Int := (ttl * 1000000) % 2 ^ 64

/-- The lifetime in nanoseconds is within 64 bits. -/
theorem nanosecondsOf_range (ttl : Int) : 0 ≤ nanosecondsOf ttl ∧ nanosecondsOf ttl < 2 ^ 64 := by
  unfold nanosecondsOf
  omega

/-- Wrapping after the conversion and again after the addition is wrapping once. -/
theorem expirationAt_eq (now ttl : Int) :
    expirationAt now ttl = (now + nanosecondsOf ttl).bmod (2 ^ 64) := by
  have hconverted : toRep (ttl * 1000000) = (nanosecondsOf ttl).bmod (2 ^ 64) :=
    (Int.emod_bmod (ttl * 1000000) (2 ^ 64)).symm
  rw [expirationAt, hconverted]
  exact Int.add_bmod_bmod

/-- Without overflow the expiration is the sum. -/
theorem expirationAt_of_lt {now ttl : Int} (hnow : 0 ≤ now)
    (hroom : now + nanosecondsOf ttl < 2 ^ 63) :
    expirationAt now ttl = now + nanosecondsOf ttl := by
  obtain ⟨hzero, _⟩ := nanosecondsOf_range ttl
  rw [expirationAt_eq]
  exact Int.bmod_eq_of_le (by omega) (by omega)

/-- An expiration is in the future if the nanoseconds neither vanish nor lead past
the last time point. -/
theorem lt_expirationAt_iff {now : Int} (hnow : 0 ≤ now) (hrep : now < 2 ^ 63) (ttl : Int) :
    now < expirationAt now ttl ↔
      0 < nanosecondsOf ttl ∧ now + nanosecondsOf ttl < 2 ^ 63 := by
  obtain ⟨hzero, hturn⟩ := nanosecondsOf_range ttl
  by_cases hroom : now + nanosecondsOf ttl < 2 ^ 63
  · rw [expirationAt_of_lt hnow hroom]
    omega
  · -- One turn of the count leads back behind `now`.
    have hpast : expirationAt now ttl = now + nanosecondsOf ttl - 2 ^ 64 := by
      rw [expirationAt_eq, ← Int.sub_bmod_right]
      exact Int.bmod_eq_of_le (by omega) (by omega)
    rw [hpast]
    omega

/-- Below the last time point nothing wraps. -/
theorem nanosecondsOf_of_lt {ttl : Int} (hpositive : 0 < ttl) (hroom : ttl * 1000000 < 2 ^ 63) :
    nanosecondsOf ttl = ttl * 1000000 := by
  unfold nanosecondsOf
  omega

/-- The first ttl to lead past the last time point does so without a turn of the
64-bit count. -/
theorem exists_first_overflow {now ttl : Int} (hnow : 0 ≤ now) (hrep : now < 2 ^ 63)
    (hover : 2 ^ 63 ≤ now + ttl * 1000000) :
    ∃ first, 0 < first ∧ first ≤ ttl ∧ 2 ^ 63 ≤ now + nanosecondsOf first := by
  refine ⟨(2 ^ 63 - now + 999999) / 1000000, ?_, ?_, ?_⟩
  · omega
  · omega
  · unfold nanosecondsOf
    omega

variable {Key Value : Type} [DecidableEq Key] {Q : ExpirationQueue Key}

/-- A put maps its key with the next generation. -/
theorem TExpiringCache.lookup_put_self {self : TExpiringCache Q Value}
    (hrunning : self.isStopping = false) (now : Int) (key : Key) (value : Value) (ttl : Int) :
    (self.put now key value ttl).1.lookupMap.lookup key =
      some ⟨⟨expirationAt now ttl, self.currentGeneration + 1⟩, value⟩ := by
  simp [TExpiringCache.put, hrunning]

/-- A put can be got at the same reading if its expiration is in the future. -/
theorem TExpiringCache.get_put_self_iff {self : TExpiringCache Q Value}
    (hrunning : self.isStopping = false) (now : Int) (key : Key) (value : Value) (ttl : Int) :
    (self.put now key value ttl).1.get now key = some value ↔ now < expirationAt now ttl := by
  have hstill : (self.put now key value ttl).1.isStopping = false := by
    simp [TExpiringCache.put, hrunning]
  unfold TExpiringCache.get
  rw [if_neg (by simp [hstill]), self.lookup_put_self hrunning]
  by_cases hfuture : now < expirationAt now ttl
  · simp [hfuture]
  · simp [hfuture, not_lt.mp hfuture]

/-- Of two puts at one reading, that of the longer ttl stores an expiration that is
no earlier, and the values of both can be got. -/
structure TExpiringCache.OutlivesShorter (cache : TExpiringCache Q Value) (now : Int) (key : Key)
    (value : Value) (shorter longer : Int) : Prop where
  ordered : ∀ first ∈ (cache.put now key value shorter).1.lookupMap.lookup key,
    ∀ second ∈ (cache.put now key value longer).1.lookupMap.lookup key,
      first.expiration ≤ second.expiration
  gotShorter : (cache.put now key value shorter).1.get now key = some value
  gotLonger : (cache.put now key value longer).1.get now key = some value

/-- The longer ttl outlives the shorter exactly when the shorter is positive, neither wraps out
of order, and the longer does not take the clock out of its range. -/
theorem TExpiringCache.outlivesShorter_iff {self : TExpiringCache Q Value}
    (hrunning : self.isStopping = false) {now : Int} (hnow : 0 ≤ now) (hrep : now < 2 ^ 63)
    (key : Key) (value : Value) (shorter longer : Int) :
    self.OutlivesShorter now key value shorter longer ↔
      0 < nanosecondsOf shorter ∧ nanosecondsOf shorter ≤ nanosecondsOf longer ∧
        now + nanosecondsOf longer < 2 ^ 63 := by
  have hgot (ttl : Int) := (self.get_put_self_iff hrunning now key value ttl).trans
    (lt_expirationAt_iff hnow hrep ttl)
  have hlookup (ttl : Int) := self.lookup_put_self hrunning now key value ttl
  constructor
  · intro h
    obtain ⟨hpositive, hroom⟩ := (hgot shorter).mp h.gotShorter
    obtain ⟨_, hroomLonger⟩ := (hgot longer).mp h.gotLonger
    have hle : expirationAt now shorter ≤ expirationAt now longer :=
      h.ordered _ (hlookup shorter) _ (hlookup longer)
    rw [expirationAt_of_lt hnow hroom, expirationAt_of_lt hnow hroomLonger] at hle
    exact ⟨hpositive, by omega, hroomLonger⟩
  · rintro ⟨hpositive, hle, hroom⟩
    refine ⟨?_, (hgot shorter).mpr ⟨hpositive, by omega⟩, (hgot longer).mpr ⟨by omega, hroom⟩⟩
    intro first hfirst second hsecond
    rw [hlookup, Option.mem_some_iff] at hfirst hsecond
    rw [← hfirst, ← hsecond]
    show expirationAt now shorter ≤ expirationAt now longer
    rw [expirationAt_of_lt hnow (by omega), expirationAt_of_lt hnow hroom]
    omega

/-- For two given ttls the entry of the longer one never expires first if the nanoseconds of
both, as the 64-bit count keeps them, are positive and in order and end before the last time
point; for all ttls up to a given one, if the given one does not lead past the last time point. -/
theorem TExpiringCache.outlives_shorter {self : TExpiringCache Q Value}
    (hrunning : self.isStopping = false) {now : Int} (hnow : 0 ≤ now) (hrep : now < 2 ^ 63)
    (key : Key) (value : Value) (longer : Int) (hpositive : 0 < longer) :
    (∀ shorter, 0 < shorter → shorter ≤ longer →
      (self.OutlivesShorter now key value shorter longer ↔
        0 < nanosecondsOf shorter ∧ nanosecondsOf shorter ≤ nanosecondsOf longer ∧
          now + nanosecondsOf longer < 2 ^ 63)) ∧
    ((∀ shorter, 0 < shorter → shorter ≤ longer →
        self.OutlivesShorter now key value shorter longer) ↔
      now + longer * 1000000 < 2 ^ 63) := by
  have hiff := self.outlivesShorter_iff hrunning hnow hrep key value
  refine ⟨fun shorter _ _ => hiff shorter longer, ?_, ?_⟩
  · intro hall
    by_contra hover
    obtain ⟨first, hfirst, hle, hpast⟩ := exists_first_overflow hnow hrep (not_lt.mp hover)
    obtain ⟨_, hordered, hroom⟩ := (hiff first longer).mp (hall first hfirst hle)
    omega
  · intro hroom shorter hshorter hle
    rw [hiff, nanosecondsOf_of_lt hshorter (by omega), nanosecondsOf_of_lt hpositive (by omega)]
    omega

/-- A day outlives a second. -/
theorem outlives_shorter_day :
    (({} : TExpiringCache (PriorityQueue.sorted (@HeapEntry.NotAfter Nat)) String)).OutlivesShorter
      1000000000 7 "value" 1000 86400000 :=
  ((TExpiringCache.outlives_shorter rfl (by decide) (by decide) 7 "value" 86400000 (by decide)).1
    1000 (by decide) (by decide)).mpr (by decide)

/-- The ttl of `milliseconds::max()` has expired when it is put. -/
theorem not_outlives_shorter_max :
    ¬ (({} : TExpiringCache (PriorityQueue.sorted (@HeapEntry.NotAfter Nat)) String)).OutlivesShorter
      1000000000 7 "never" 1000 (2 ^ 63 - 1) := by
  intro h
  have hgot := h.gotLonger
  rw [TExpiringCache.get_put_self_iff rfl] at hgot
  revert hgot
  decide

end spdlogger.expiring_cache
