import Spdlogger.Library.Machine
import Spdlogger.ExpiringCache.Refinement

namespace spdlogger.expiring_cache

/-- Where the handler thread stands. `computing`, `testing` and `returned` hold
`dataMutex_`; a deadline is the `timeToWaitUntil` the current wait was entered with. -/
inductive HandlerPhase where
  | acquiring
  | computing
  | testing (deadline : Int)
  | blocked (deadline : Int)
  | woken (deadline : Int)
  | timedOut
  | returned
  | exited
  deriving DecidableEq, Repr

/-- The handler does not hold the mutex. -/
def HandlerPhase.mutexFree : HandlerPhase → Bool
  | .computing | .testing _ | .returned => false
  | _ => true

/-- A notification reaches the handler only while it is blocked. -/
def HandlerPhase.notified : HandlerPhase → HandlerPhase
  | .blocked deadline => .woken deadline
  | phase => phase

/-- Where a thread calling `stop` stands. `threw` has left it by the exception of a
`join` on a thread that was joined before. -/
inductive StopPhase where
  | idle
  | notifying
  | testingJoinable
  | joining
  | returned
  | threw
  deriving DecidableEq, Repr

/-- The cache with its handler thread and the threads calling `stop`. `history`
records the critical sections executed so far. -/
structure State {Key : Type} (Q : ExpirationQueue Key) (Value Tid : Type) where
  cache : TExpiringCache Q Value := {}
  clock : Int := 0
  handler : HandlerPhase := .acquiring
  stoppers : Tid → StopPhase := fun _ => .idle
  joinable : Bool := true
  joins : Nat := 0
  history : List (TimedCall Key Value) := []

/-- `tick` lets time pass, `timeout` and `spuriousWake` end a wait without a notification. -/
inductive Action (Key Value Tid : Type) where
  | put (key : Key) (value : Value) (ttl : Int)
  | get (key : Key)
  | remove (key : Key)
  | size
  | tick (elapsed : Nat)
  | handlerStep
  | spuriousWake
  | timeout
  | stopStep (thread : Tid)

variable {Key Value Tid : Type} [DecidableEq Key] [DecidableEq Tid] {Q : ExpirationQueue Key}

/-- The history with one more call, at what the clock reads. -/
def State.record (s : State Q Value Tid) (call : Call Key Value) : List (TimedCall Key Value) :=
  s.history ++ [⟨s.clock, call⟩]

/-- Where the handler stands after a `notify_one` that is made or not. -/
def State.notifyIf (s : State Q Value Tid) (notify : Bool) : HandlerPhase :=
  if notify then s.handler.notified else s.handler

/-- The handler's next step. `wait_until` tests its predicate before it blocks
and after every wake-up, each time against the deadline it was called with; a
time-out leaves the wait whatever the predicate says. -/
def State.handlerStep (s : State Q Value Tid) : Option (State Q Value Tid) :=
  match s.handler with
  | .acquiring => some { s with handler := .computing }
  | .computing => some { s with handler := .testing s.cache.timeToWaitUntil }
  | .testing deadline =>
    if s.cache.wakePredicate s.clock then some { s with handler := .returned }
    else some { s with handler := .blocked deadline }
  | .blocked _ => none
  | .woken deadline => some { s with handler := .testing deadline }
  | .timedOut => some { s with handler := .returned }
  | .returned =>
    if s.cache.isStopping then some { s with handler := .exited }
    else some { s with
      cache := s.cache.sweep s.clock
      handler := .computing
      history := s.record .sweep }
  | .exited => none

/-- A step of a thread inside `stop`. The flag is set under the mutex; the
notification, the `joinable` test and the join follow without it. -/
def State.stopStep (s : State Q Value Tid) (thread : Tid) : Option (State Q Value Tid) :=
  match s.stoppers thread with
  | .idle | .returned | .threw =>
    if s.handler.mutexFree then
      some { s with
        cache := s.cache.setStopping
        stoppers := Function.update s.stoppers thread .notifying
        history := s.record .stop }
    else none
  | .notifying => some { s with
      handler := s.handler.notified
      stoppers := Function.update s.stoppers thread .testingJoinable }
  | .testingJoinable =>
    let next : StopPhase := if s.joinable then .joining else .returned
    some { s with stoppers := Function.update s.stoppers thread next }
  | .joining =>
    if s.handler = .exited then
      let next : StopPhase := if s.joinable then .returned else .threw
      some { s with
        joinable := false
        joins := s.joins + 1
        stoppers := Function.update s.stoppers thread next }
    else none

/-- One step of the cache, its handler and its callers. The public operations
need the mutex for the whole of their critical section. -/
def State.step (s : State Q Value Tid) : Action Key Value Tid → Option (State Q Value Tid)
  | .put key value ttl =>
    if s.handler.mutexFree then
      let (cache, notify) := s.cache.put s.clock key value ttl
      some { s with cache, handler := s.notifyIf notify, history := s.record (.put key value ttl) }
    else none
  | .get key =>
    if s.handler.mutexFree then some { s with history := s.record (.get key) } else none
  | .remove key =>
    if s.handler.mutexFree then
      let (cache, _, notify) := s.cache.remove key
      some { s with cache, handler := s.notifyIf notify, history := s.record (.remove key) }
    else none
  | .size => if s.handler.mutexFree then some { s with history := s.record .size } else none
  | .tick elapsed => some { s with clock := s.clock + elapsed }
  | .handlerStep => s.handlerStep
  | .spuriousWake =>
    match s.handler with
    | .blocked deadline => some { s with handler := .woken deadline }
    | _ => none
  | .timeout =>
    match s.handler with
    | .blocked deadline => if deadline ≤ s.clock then some { s with handler := .timedOut } else none
    | _ => none
  | .stopStep thread => s.stopStep thread

/-- The cache from its construction on, with the clock at any reading. -/
def cacheMachine (Q : ExpirationQueue Key) (Value Tid : Type) [DecidableEq Tid] :
    transition.Machine (State Q Value Tid) (Action Key Value Tid) where
  init s := ∃ clock, s = { clock }
  step := State.step

end spdlogger.expiring_cache
