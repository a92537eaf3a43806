import Mathlib.Data.Fintype.Basic
import Spdlogger.Library.ConditionVariable

namespace spdlogger.producer_consumer_queue

/-- `createdAt` is a reading of the steady clock, in nanoseconds. -/
structure WorkItem (producerCount : Nat) where
  producerId : Fin producerCount
  sequenceId : UInt32 := 0
  createdAt : Int
  deriving DecidableEq

/-- The queue takes no more items than this. -/
def maxQueueSize : Nat := 2000

/-- Where a producer stands. `pushing` is about to enter its critical section,
and `notifying` has left it with an item pushed. -/
inductive ProducerPhase where
  | notCreated
  | testingStop
  | pushing
  | notifying
  | exited
  deriving DecidableEq, Repr

/-- Where a consumer stands. `locking` is about to take the mutex, for the first
time or after its log call. `testingPredicate` to `woken` lie inside `wait_for`,
which takes the mutex again when it is woken; `testingEmpty` is behind it. -/
inductive ConsumerPhase (producerCount : Nat) where
  | notCreated
  | locking
  | testingStop
  | testingPredicate
  | blocked
  | woken (timedOut : Bool)
  | testingEmpty
  | foundEmpty
  | popping
  | logging (poppedItem : WorkItem producerCount) (workItemsSize : Nat)
  | exited
  deriving DecidableEq

/-- Where the thread inside `run` stands. `joining index` waits for the thread at
`index` of `threads_`, the producers before the consumers. -/
inductive MainPhase where
  | creatingProducer (producerId : Nat)
  | creatingConsumer (consumerId : Nat)
  | joining (index : Nat)
  | returned
  | threw
  deriving DecidableEq, Repr

/-- What a consumer logs of an item. -/
structure LogLine (producerCount consumerCount : Nat) where
  consumer : Fin consumerCount
  producer : Fin producerCount
  seq : UInt32
  latencyUs : Int
  queueSize : Nat
  deriving DecidableEq

variable {producerCount consumerCount : Nat}

/-- The phases in which a consumer holds `workItemsMutex`. -/
def ConsumerPhase.holds : ConsumerPhase producerCount → Bool
  | .testingStop | .testingPredicate | .testingEmpty | .foundEmpty | .popping => true
  | .notCreated | .locking | .blocked | .woken _ | .logging .. | .exited => false

/-- `workItemsCv_`. -/
def workItemsCv (producerCount : Nat) :
    condition_variable.Waiters (ConsumerPhase producerCount) where
  blocked phase := phase matches .blocked
  wake
    | .blocked => .woken false
    | phase => phase
  not_blocked_wake phase := by cases phase <;> rfl
  wake_of_not_blocked phase h := by
    cases phase with
    | blocked => cases h
    | _ => rfl

/-- `run` with its threads. `workItemsMutex` names the consumer that holds the
mutex; a producer is through with it in one step. The last three fields are
history: the items pushed and popped in the order of the mutex, and the log. -/
structure State (producerCount consumerCount : Nat) where
  stop : Bool := false
  workItemsMutex : Option (Fin consumerCount) := none
  workItems : List (WorkItem producerCount) := []
  latestSequenceId : UInt32 := 0
  producers : Fin producerCount → ProducerPhase := fun _ => .notCreated
  consumers : Fin consumerCount → ConsumerPhase producerCount := fun _ => .notCreated
  main : MainPhase := .creatingProducer 0
  pushed : List (WorkItem producerCount) := []
  popped : List (WorkItem producerCount) := []
  logged : List (LogLine producerCount consumerCount) := []

/-- `now` is what the clock reads at the step, and `target` the consumer that a notification
picks. -/
inductive Action (producerCount consumerCount : Nat) where
  | setStop
  | mainStep (succeeds : Bool)
  | producerStep (producerId : Fin producerCount) (now : Int)
  | notifyOne (producerId : Fin producerCount) (target : Option (Fin consumerCount))
  | consumerStep (consumerId : Fin consumerCount) (now : Int)
  | timeout (consumerId : Fin consumerCount)
  | spuriousWake (consumerId : Fin consumerCount)

/-- The state with one producer moved. -/
def State.setProducer (s : State producerCount consumerCount) (producerId : Fin producerCount)
    (phase : ProducerPhase) : State producerCount consumerCount :=
  { s with producers := Function.update s.producers producerId phase }

/-- The state with one consumer moved. -/
def State.setConsumer (s : State producerCount consumerCount) (consumerId : Fin consumerCount)
    (phase : ConsumerPhase producerCount) : State producerCount consumerCount :=
  { s with consumers := Function.update s.consumers consumerId phase }

@[simp] theorem State.consumers_setConsumer (s : State producerCount consumerCount)
    (consumerId : Fin consumerCount) (phase : ConsumerPhase producerCount) :
    (s.setConsumer consumerId phase).consumers =
      Function.update s.consumers consumerId phase := rfl

end spdlogger.producer_consumer_queue
