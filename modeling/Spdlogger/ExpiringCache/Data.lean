import Mathlib.Data.Finmap
import Spdlogger.Library.PriorityQueue

namespace spdlogger.expiring_cache

/-- The signed 64-bit representation of a tick count; overflow wraps. -/
def toRep (count : Int) : Int := count.bmod (2 ^ 64)

/-- `std::chrono::steady_clock::time_point::max()`, in nanoseconds. -/
def timePointMax : Int := 2 ^ 63 - 1

/-- `std::chrono::steady_clock::now() + ttl`. The milliseconds are converted to
nanoseconds first, and neither the conversion nor the addition is checked. -/
def expirationAt (now ttl : Int) : Int := toRep (now + toRep (ttl * 1000000))

/-- When an entry expires, and which `put` it is of. -/
structure ExpirationMetadata where
  expiration : Int
  generation : UInt64
  deriving DecidableEq, Repr

/-- An entry of `lookupMap_`. -/
structure MapEntry (Value : Type) extends ExpirationMetadata where
  value : Value
  deriving DecidableEq, Repr

/-- An entry of `expirationQueue_`. -/
structure HeapEntry (Key : Type) extends ExpirationMetadata where
  key : Key
  deriving DecidableEq, Repr

/-- `ExpirationCompare::operator()`: `std::priority_queue` keeps an entry above
the entries this does not order before it. -/
def ExpirationCompare {Key : Type} (lhs rhs : HeapEntry Key) : Bool :=
  lhs.expiration > rhs.expiration

/-- The order in which the heap serves its entries. -/
def HeapEntry.NotAfter {Key : Type} (lhs rhs : HeapEntry Key) : Prop :=
  ExpirationCompare lhs rhs = false

/-- The order of the heap is that of the expirations. -/
theorem HeapEntry.notAfter_iff {Key : Type} {lhs rhs : HeapEntry Key} :
    lhs.NotAfter rhs ↔ lhs.expiration ≤ rhs.expiration := by
  simp [HeapEntry.NotAfter, ExpirationCompare]

instance {Key : Type} : DecidableRel (@HeapEntry.NotAfter Key) :=
  fun _ _ => decidable_of_iff _ HeapEntry.notAfter_iff.symm

instance {Key : Type} : Std.Total (@HeapEntry.NotAfter Key) where
  total lhs rhs := by
    simp only [HeapEntry.notAfter_iff]
    exact le_total _ _

instance {Key : Type} : IsTrans (HeapEntry Key) HeapEntry.NotAfter where
  trans _ _ _ hfirst hsecond := by
    rw [HeapEntry.notAfter_iff] at *
    exact hfirst.trans hsecond

/-- Any implementation of `std::priority_queue<HeapEntry, .., ExpirationCompare>`. -/
abbrev ExpirationQueue (Key : Type) := PriorityQueue.{0, 0} (HeapEntry Key) HeapEntry.NotAfter

/-- The data members that `dataMutex_` guards. -/
structure TExpiringCache {Key : Type} (Q : ExpirationQueue Key) (Value : Type) where
  currentGeneration : UInt64 := 0
  lookupMap : Finmap fun _ : Key => MapEntry Value := ∅
  expirationQueue : Q.Carrier := Q.empty
  isStopping : Bool := false

variable {Key Value : Type} [DecidableEq Key] {Q : ExpirationQueue Key}

/-- `put`, at the clock reading `now`. The second component tells whether
`expirationQueueCv_` is notified. -/
def TExpiringCache.put (self : TExpiringCache Q Value) (now : Int) (key : Key) (value : Value)
    (ttl : Int) : TExpiringCache Q Value × Bool :=
  if self.isStopping then (self, false)
  else
    let metadata : ExpirationMetadata := ⟨expirationAt now ttl, self.currentGeneration + 1⟩
    let queue := Q.push self.expirationQueue ⟨metadata, key⟩
    ({ self with
        currentGeneration := metadata.generation
        lookupMap := self.lookupMap.insert key ⟨metadata, value⟩
        expirationQueue := queue },
      (Q.top queue).any fun top => top.key = key)

/-- `get`, at the clock reading `now`. -/
def TExpiringCache.get (self : TExpiringCache Q Value) (now : Int) (key : Key) : Option Value :=
  if self.isStopping then none
  else
    match self.lookupMap.lookup key with
    | none => none
    | some foundElement => if foundElement.expiration ≤ now then none else some foundElement.value

/-- `remove`: the new state, the returned flag and whether
`expirationQueueCv_` is notified. -/
def TExpiringCache.remove (self : TExpiringCache Q Value) (key : Key) :
    TExpiringCache Q Value × Bool × Bool :=
  if self.isStopping then (self, false, false)
  else
    ({ self with lookupMap := self.lookupMap.erase key },
      (self.lookupMap.lookup key).isSome,
      (Q.top self.expirationQueue).any fun top => top.key = key)

/-- `size`: the physical size of the map, expired entries included. -/
def TExpiringCache.size (self : TExpiringCache Q Value) : Nat :=
  if self.isStopping then 0 else self.lookupMap.keys.card

/-- The critical section of `stop`. -/
def TExpiringCache.setStopping (self : TExpiringCache Q Value) : TExpiringCache Q Value :=
  { self with isStopping := true }

/-- The body of the handler's sweep loop after the pop: the map entry goes only
when it is still the one this heap entry was pushed for. -/
def evict (lookupMap : Finmap fun _ : Key => MapEntry Value) (expiredData : HeapEntry Key) :
    Finmap fun _ : Key => MapEntry Value :=
  match lookupMap.lookup expiredData.key with
  | none => lookupMap
  | some foundElement =>
    if foundElement.generation = expiredData.generation then lookupMap.erase expiredData.key
    else lookupMap

/-- The handler's sweep loop at the clock reading `now`. -/
def TExpiringCache.sweep (self : TExpiringCache Q Value) (now : Int) : TExpiringCache Q Value :=
  let drained := Q.drain (fun top => top.expiration ≤ now) evict self.expirationQueue self.lookupMap
  { self with expirationQueue := drained.1, lookupMap := drained.2 }

/-- The predicate the handler passes to `wait_until`, at the clock reading `now`. -/
def TExpiringCache.wakePredicate (self : TExpiringCache Q Value) (now : Int) : Bool :=
  self.isStopping || (Q.top self.expirationQueue).any fun top => top.expiration ≤ now

/-- `timeToWaitUntil`, computed by the handler before it waits. -/
def TExpiringCache.timeToWaitUntil (self : TExpiringCache Q Value) : Int :=
  match Q.top self.expirationQueue with
  | none => timePointMax
  | some top => top.expiration

end spdlogger.expiring_cache
