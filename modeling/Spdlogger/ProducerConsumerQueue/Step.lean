import Spdlogger.Library.Machine
import Spdlogger.ProducerConsumerQueue.Data

namespace spdlogger.producer_consumer_queue

variable {producerCount consumerCount : Nat}

/-- A consumer takes the mutex, once it is free. -/
def State.lock (s : State producerCount consumerCount) (consumerId : Fin consumerCount)
    (phase : ConsumerPhase producerCount) : Option (State producerCount consumerCount) :=
  if s.workItemsMutex = none then
    some { s.setConsumer consumerId phase with workItemsMutex := some consumerId }
  else none

/-- A consumer releases the mutex. -/
def State.unlock (s : State producerCount consumerCount) (consumerId : Fin consumerCount)
    (phase : ConsumerPhase producerCount) : State producerCount consumerCount :=
  { s.setConsumer consumerId phase with workItemsMutex := none }

/-- The push of a producer that finds room. -/
def State.push (s : State producerCount consumerCount) (producerId : Fin producerCount)
    (now : Int) : State producerCount consumerCount :=
  let item : WorkItem producerCount := ⟨producerId, s.latestSequenceId, now⟩
  { s.setProducer producerId .notifying with
    workItems := s.workItems ++ [item]
    latestSequenceId := s.latestSequenceId + 1
    pushed := s.pushed ++ [item] }

/-- A step of a producer, its notification apart. The critical section is one
step: nothing inside it waits. -/
def State.producerStep (s : State producerCount consumerCount) (producerId : Fin producerCount)
    (now : Int) : Option (State producerCount consumerCount) :=
  match s.producers producerId with
  | .testingStop => some (s.setProducer producerId (if s.stop then .exited else .pushing))
  | .pushing =>
    if s.workItemsMutex = none then
      if s.workItems.length < maxQueueSize then some (s.push producerId now)
      else some (s.setProducer producerId .testingStop)
    else none
  | .notCreated | .notifying | .exited => none

/-- `workItemsCv.notify_one`, after the lock is gone. -/
def State.notifyOne (s : State producerCount consumerCount) (producerId : Fin producerCount)
    (target : Option (Fin consumerCount)) : Option (State producerCount consumerCount) :=
  if s.producers producerId = .notifying ∧
      (workItemsCv producerCount).Picks s.consumers target then
    some { s.setProducer producerId .testingStop with
      consumers := (workItemsCv producerCount).notifyOne s.consumers target }
  else none

/-- A step of a consumer. `wait_for` tests its predicate again after a wake-up and
returns after a time-out; to pop from an empty queue has no defined meaning. -/
def State.consumerStep (s : State producerCount consumerCount) (consumerId : Fin consumerCount)
    (now : Int) : Option (State producerCount consumerCount) :=
  match s.consumers consumerId with
  | .locking => s.lock consumerId .testingStop
  | .testingStop =>
    if s.stop then some (s.unlock consumerId .exited)
    else some (s.setConsumer consumerId .testingPredicate)
  | .testingPredicate =>
    if s.stop || !s.workItems.isEmpty then some (s.setConsumer consumerId .testingEmpty)
    else some (s.unlock consumerId .blocked)
  | .woken timedOut => s.lock consumerId (if timedOut then .testingEmpty else .testingPredicate)
  | .testingEmpty =>
    if s.workItems.isEmpty then some (s.setConsumer consumerId .foundEmpty)
    else some (s.setConsumer consumerId .popping)
  | .foundEmpty =>
    if s.stop then some (s.unlock consumerId .exited)
    else some (s.setConsumer consumerId .testingStop)
  | .popping =>
    match s.workItems with
    | [] => none
    | poppedItem :: rest => some { s.unlock consumerId (.logging poppedItem rest.length) with
        workItems := rest
        popped := s.popped ++ [poppedItem] }
  | .logging poppedItem workItemsSize =>
    let latencyUs := (now - poppedItem.createdAt).tdiv 1000
    some { s.setConsumer consumerId .locking with
      logged := s.logged ++ [⟨consumerId, poppedItem.producerId, poppedItem.sequenceId,
        latencyUs, workItemsSize⟩] }
  | .notCreated | .blocked | .exited => none

/-- `wait_for` gives up, or wakes without a notification. -/
def State.wake (s : State producerCount consumerCount) (consumerId : Fin consumerCount)
    (timedOut : Bool) : Option (State producerCount consumerCount) :=
  if s.consumers consumerId = .blocked then some (s.setConsumer consumerId (.woken timedOut))
  else none

/-- A step of `run` itself. `succeeds` is the outcome of a thread creation; one
that fails leaves `run` by its exception. -/
def State.mainStep (s : State producerCount consumerCount) (succeeds : Bool) :
    Option (State producerCount consumerCount) :=
  match s.main with
  | .creatingProducer producerId =>
    if h : producerId < producerCount then
      if succeeds then
        some { s.setProducer ⟨producerId, h⟩ .testingStop with
          main := .creatingProducer (producerId + 1) }
      else some { s with main := .threw }
    else some { s with main := .creatingConsumer 0 }
  | .creatingConsumer consumerId =>
    if h : consumerId < consumerCount then
      if succeeds then
        some { s.setConsumer ⟨consumerId, h⟩ .locking with
          main := .creatingConsumer (consumerId + 1) }
      else some { s with main := .threw }
    else some { s with main := .joining 0 }
  | .joining index =>
    if h : index < producerCount then
      if s.producers ⟨index, h⟩ = .exited then some { s with main := .joining (index + 1) }
      else none
    else if h : index - producerCount < consumerCount then
      if s.consumers ⟨index - producerCount, h⟩ = .exited then
        some { s with main := .joining (index + 1) }
      else none
    else some { s with main := .returned }
  | .returned | .threw => none

/-- One step of `run` or of its threads, or the `stop` of the caller. -/
def State.step (s : State producerCount consumerCount) :
    Action producerCount consumerCount → Option (State producerCount consumerCount)
  | .setStop => some { s with stop := true }
  | .mainStep succeeds => s.mainStep succeeds
  | .producerStep producerId now => s.producerStep producerId now
  | .notifyOne producerId target => s.notifyOne producerId target
  | .consumerStep consumerId now => s.consumerStep consumerId now
  | .timeout consumerId => s.wake consumerId true
  | .spuriousWake consumerId => s.wake consumerId false

/-- One call of `ProducerConsumerQueueTest::run`, with stop at either value. -/
def queueMachine (producerCount consumerCount : Nat) :
    transition.Machine (State producerCount consumerCount)
      (Action producerCount consumerCount) where
  init s := ∃ stop, s = { stop }
  step := State.step

end spdlogger.producer_consumer_queue
