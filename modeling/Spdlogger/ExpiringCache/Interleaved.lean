import Spdlogger.Library.Linearizable
import Spdlogger.Library.Machine
import Spdlogger.Library.SharedMutex
import Spdlogger.ExpiringCache.Data

namespace spdlogger.expiring_cache

/-- A call of a public method. -/
inductive Op (Key Value : Type) where
  | put (key : Key) (value : Value) (ttl : Int)
  | get (key : Key)
  | remove (key : Key)
  | size
  | stop
  deriving DecidableEq, Repr

/-- What a method returns. -/
inductive Ret (Value : Type) where
  | done
  | found (value : Option Value)
  | removed (removed : Bool)
  | size (size : Nat)
  deriving DecidableEq, Repr

/-- Where a thread stands in the method it has called. `reading` to `topping` are the
statements of `put` behind its test, `topping` is the look at the top of the heap in `put`
and `remove`, `leaving` is the end of a lock's scope, and `notifying` to `joining` are in
`stop` behind that. -/
inductive CallerPosition (Key Value : Type) where
  | idle
  | acquiring (op : Op Key Value)
  | testing (op : Op Key Value)
  | reading (key : Key) (value : Value) (ttl : Int)
  | assigning (key : Key) (value : Value) (expiration : Int)
  | pushing (key : Key) (metadata : ExpirationMetadata)
  | topping (key : Key) (ret : Ret Value)
  | finding (key : Key)
  | comparing (key : Key) (foundElement : MapEntry Value)
  | erasing (key : Key)
  | counting
  | setting
  | leaving (shared : Bool) (ret : Ret Value)
  | releasing
  | notifying
  | testingJoinable
  | joining
  | returned (ret : Ret Value)
  | threw
  deriving DecidableEq, Repr

/-- Where the handler thread stands. `sweeping` is the inner loop, with the reading of the
clock it goes by. -/
inductive HandlerPosition where
  | acquiring
  | computing
  | testing (deadline : Int)
  | blocked (deadline : Int)
  | woken (deadline : Int)
  | timedOut
  | returned
  | sweeping (now : Int)
  | exited
  deriving DecidableEq, Repr

/-- A notification wakes the handler where it is blocked. -/
def HandlerPosition.notified : HandlerPosition → HandlerPosition
  | .blocked deadline => .woken deadline
  | position => position

/-- How the handler holds `dataMutex_`. -/
def HandlerPosition.mode : HandlerPosition → SharedMutex.Mode
  | .computing | .testing _ | .returned | .sweeping _ => .exclusive
  | _ => .free

@[simp] theorem HandlerPosition.mode_notified (position : HandlerPosition) :
    position.notified.mode = position.mode := by
  cases position <;> rfl

variable {Key Value Tid : Type} [DecidableEq Key] [DecidableEq Tid] {Q : ExpirationQueue Key}

/-- `get` and `size` share the lock. -/
def Op.isShared : Op Key Value → Bool
  | .get _ | .size => true
  | _ => false

/-- How a caller holds the shared mutex. -/
def CallerPosition.mode : CallerPosition Key Value → SharedMutex.Mode
  | .testing op => if op.isShared then .shared else .exclusive
  | .finding _ | .comparing _ _ | .counting => .shared
  | .reading _ _ _ | .assigning _ _ _ | .pushing _ _ | .topping _ _ | .erasing _ | .setting
  | .releasing => .exclusive
  | .leaving shared _ => if shared then .shared else .exclusive
  | _ => .free

/-- The first statement under the lock. `stop` tests nothing. -/
def Op.locked : Op Key Value → CallerPosition Key Value
  | .stop => .setting
  | op => .testing op

/-- What each method does when `isStopping_` is set. -/
def Op.refused : Op Key Value → CallerPosition Key Value
  | .put _ _ _ => .leaving false .done
  | .get _ => .leaving true (.found none)
  | .remove _ => .leaving false (.removed false)
  | .size => .leaving true (.size 0)
  | .stop => .setting

/-- Where a method goes on once it has the mutex and the cache is not stopped. -/
def Op.admitted : Op Key Value → CallerPosition Key Value
  | .put key value ttl => .reading key value ttl
  | .get key => .finding key
  | .remove key => .erasing key
  | .size => .counting
  | .stop => .setting

/-- The cache, its handler thread and the threads inside its methods. The owner `none`
of `dataMutex_` is the handler. -/
structure Interleaved (Q : ExpirationQueue Key) (Value Tid : Type) where
  cache : TExpiringCache Q Value := {}
  clock : Int := 0
  dataMutex : SharedMutex (Option Tid) := {}
  handler : HandlerPosition := .acquiring
  callers : Tid → CallerPosition Key Value := fun _ => .idle
  joinable : Bool := true
  history : List (linearizable.Event Tid (Op Key Value) (Ret Value) Int) := []

/-- A call, a step inside one, or a step of the handler or of the clock. -/
inductive InterleavedAction (Key Value Tid : Type) where
  | call (thread : Tid) (op : Op Key Value)
  | callerStep (thread : Tid)
  | tick (elapsed : Nat)
  | handlerStep
  | spuriousWake
  | timeout

/-- The state with one caller moved. -/
def Interleaved.setCaller (s : Interleaved Q Value Tid) (thread : Tid)
    (position : CallerPosition Key Value) : Interleaved Q Value Tid :=
  { s with callers := Function.update s.callers thread position }

/-- The statements between the locking and the unlocking of a method. -/
def Interleaved.insideStep (s : Interleaved Q Value Tid) (thread : Tid) :
    CallerPosition Key Value → Option (Interleaved Q Value Tid)
  | .testing op => some (s.setCaller thread (if s.cache.isStopping then op.refused else op.admitted))
  | .reading key value ttl => some (s.setCaller thread (.assigning key value (expirationAt s.clock ttl)))
  | .assigning key value expiration =>
    let metadata : ExpirationMetadata := ⟨expiration, s.cache.currentGeneration + 1⟩
    some { s.setCaller thread (.pushing key metadata) with
      cache := { s.cache with
        currentGeneration := metadata.generation
        lookupMap := s.cache.lookupMap.insert key ⟨metadata, value⟩ } }
  | .pushing key metadata =>
    some { s.setCaller thread (.topping key .done) with
      cache := { s.cache with expirationQueue := Q.push s.cache.expirationQueue ⟨metadata, key⟩ } }
  | .topping key ret =>
    let notify := (Q.top s.cache.expirationQueue).any fun top => top.key = key
    some { s.setCaller thread (.leaving false ret) with
      handler := if notify then s.handler.notified else s.handler }
  | .finding key =>
    match s.cache.lookupMap.lookup key with
    | none => some (s.setCaller thread (.leaving true (.found none)))
    | some foundElement => some (s.setCaller thread (.comparing key foundElement))
  | .comparing _ foundElement =>
    let value := if foundElement.expiration ≤ s.clock then none else some foundElement.value
    some (s.setCaller thread (.leaving true (.found value)))
  | .erasing key =>
    let removed := (s.cache.lookupMap.lookup key).isSome
    some { s.setCaller thread (.topping key (.removed removed)) with
      cache := { s.cache with lookupMap := s.cache.lookupMap.erase key } }
  | .counting => some (s.setCaller thread (.leaving true (.size s.cache.lookupMap.keys.card)))
  | .setting => some { s.setCaller thread .releasing with cache := s.cache.setStopping }
  | _ => none

/-- The next step of a thread in the method it has called. -/
def Interleaved.callerStep (s : Interleaved Q Value Tid) (thread : Tid) :
    Option (Interleaved Q Value Tid) :=
  match s.callers thread with
  | .idle => none
  | .acquiring op =>
    let lock := if op.isShared then s.dataMutex.lockShared (some thread)
      else s.dataMutex.lock (some thread)
    lock.map fun dataMutex => { s.setCaller thread op.locked with dataMutex }
  | .leaving shared ret =>
    some { s.setCaller thread (.returned ret) with
      dataMutex := if shared then s.dataMutex.unlockShared (some thread) else s.dataMutex.unlock }
  | .releasing => some { s.setCaller thread .notifying with dataMutex := s.dataMutex.unlock }
  | .notifying => some { s.setCaller thread .testingJoinable with handler := s.handler.notified }
  | .testingJoinable =>
    some (s.setCaller thread (if s.joinable then .joining else .returned .done))
  | .joining =>
    if s.handler = .exited then
      some { s.setCaller thread (if s.joinable then .returned .done else .threw) with
        joinable := false }
    else none
  | .returned ret =>
    some { s.setCaller thread .idle with history := s.history ++ [.respond thread ret s.clock] }
  | .threw =>
    some { s.setCaller thread .idle with history := s.history ++ [.raise thread s.clock] }
  | position => s.insideStep thread position

/-- The next step of the handler thread. `wait_until` unlocks the mutex to block and locks
it again after each wake-up. -/
def Interleaved.handlerStep (s : Interleaved Q Value Tid) : Option (Interleaved Q Value Tid) :=
  match s.handler with
  | .acquiring => (s.dataMutex.lock none).map fun dataMutex => { s with dataMutex, handler := .computing }
  | .computing => some { s with handler := .testing s.cache.timeToWaitUntil }
  | .testing deadline =>
    if s.cache.wakePredicate s.clock then some { s with handler := .returned }
    else some { s with dataMutex := s.dataMutex.unlock, handler := .blocked deadline }
  | .blocked _ => none
  | .woken deadline =>
    (s.dataMutex.lock none).map fun dataMutex => { s with dataMutex, handler := .testing deadline }
  | .timedOut => (s.dataMutex.lock none).map fun dataMutex => { s with dataMutex, handler := .returned }
  | .returned =>
    if s.cache.isStopping then some { s with dataMutex := s.dataMutex.unlock, handler := .exited }
    else some { s with handler := .sweeping s.clock }
  | .sweeping now =>
    match Q.top s.cache.expirationQueue with
    | none => some { s with handler := .computing }
    | some expiredData =>
      if expiredData.expiration ≤ now then
        some { s with cache := { s.cache with
          expirationQueue := Q.pop s.cache.expirationQueue
          lookupMap := evict s.cache.lookupMap expiredData } }
      else some { s with handler := .computing }
  | .exited => none

/-- One statement of a method or of the handler, whichever thread takes it. A `stop` sets its
flag in the method and joins the handler behind it. -/
def Interleaved.step (s : Interleaved Q Value Tid) :
    InterleavedAction Key Value Tid → Option (Interleaved Q Value Tid)
  | .call thread op =>
    match s.callers thread with
    | .idle =>
      some { s.setCaller thread (.acquiring op) with
        history := s.history ++ [.invoke thread op s.clock] }
    | _ => none
  | .callerStep thread => s.callerStep thread
  | .tick elapsed => some { s with clock := s.clock + elapsed }
  | .handlerStep => s.handlerStep
  | .spuriousWake =>
    match s.handler with
    | .blocked deadline => some { s with handler := .woken deadline }
    | _ => none
  | .timeout =>
    match s.handler with
    | .blocked deadline => if deadline ≤ s.clock then some { s with handler := .timedOut } else none
    | _ => none

/-- The cache from its construction on, with the clock at any reading. -/
def interleavedMachine (Q : ExpirationQueue Key) (Value Tid : Type) [DecidableEq Tid] :
    transition.Machine (Interleaved Q Value Tid) (InterleavedAction Key Value Tid) where
  init s := ∃ clock, s = { clock }
  step := Interleaved.step

end spdlogger.expiring_cache
