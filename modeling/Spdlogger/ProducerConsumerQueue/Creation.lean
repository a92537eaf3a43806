import Spdlogger.Library.Threads
import Spdlogger.ProducerConsumerQueue.Moves

namespace spdlogger.producer_consumer_queue

/-- `terminated` is the end of the process, and with it of every thread. -/
inductive Lifetime where
  | alive
  | destroyed
  | terminated
  deriving DecidableEq, Repr

/-- The test object, with a call of `run`. `threads` and `localThreads`, the vector of
`wait`, tell of each thread in them whether it is joinable. `failed` is history: the
creation that failed, counted over both loops. -/
structure ProducerConsumerQueueTest (producerCount consumerCount : Nat) where
  queue : State producerCount consumerCount := {}
  threads : List Bool := []
  localThreads : List Bool := []
  failed : Option Nat := none
  lifetime : Lifetime := .alive

/-- `destroy` is `tests.clear()` of `main`, behind the task that runs the test and
catches what it throws. -/
inductive TestAction (producerCount consumerCount : Nat) where
  | run (action : Action producerCount consumerCount)
  | destroy

variable {producerCount consumerCount : Nat}

/-- `emplace_back`, which leaves the vector alone if it throws. -/
def ProducerConsumerQueueTest.emplaceBack
    (s : ProducerConsumerQueueTest producerCount consumerCount) (position : Nat)
    (succeeds : Bool) : ProducerConsumerQueueTest producerCount consumerCount :=
  if succeeds then { s with threads := s.threads ++ [true] }
  else { s with failed := some position }

/-- A vector of threads goes out of scope. -/
def Lifetime.afterThreads (lifetime : Lifetime) (threads : List Bool) : Lifetime :=
  if true ∈ threads then .terminated else lifetime

/-- What a step of `run` does to the vectors of threads. -/
def ProducerConsumerQueueTest.mainStep
    (s : ProducerConsumerQueueTest producerCount consumerCount) (succeeds : Bool) :
    ProducerConsumerQueueTest producerCount consumerCount :=
  match s.queue.main with
  | .creatingProducer producerId =>
    if producerId < producerCount then s.emplaceBack producerId succeeds else s
  | .creatingConsumer consumerId =>
    if consumerId < consumerCount then s.emplaceBack (producerCount + consumerId) succeeds
    else { s with threads := s.localThreads, localThreads := s.threads }
  | .joining index =>
    if index < s.localThreads.length then
      { s with localThreads := s.localThreads.set index false }
    else { s with localThreads := [], lifetime := s.lifetime.afterThreads s.localThreads }
  | .returned | .threw => s

/-- A step of `run` and of its threads, which take place in the queue. -/
def ProducerConsumerQueueTest.run (s : ProducerConsumerQueueTest producerCount consumerCount)
    (action : Action producerCount consumerCount) :
    Option (ProducerConsumerQueueTest producerCount consumerCount) :=
  if s.lifetime = .alive then
    (s.queue.step action).map fun queue =>
      match action with
      | .mainStep succeeds => { s.mainStep succeeds with queue }
      | _ => { s with queue }
  else none

/-- The implicit destructor. `threads_` is the last member, and goes first. -/
def ProducerConsumerQueueTest.destroy
    (s : ProducerConsumerQueueTest producerCount consumerCount) :
    Option (ProducerConsumerQueueTest producerCount consumerCount) :=
  if s.lifetime = .alive ∧ (s.queue.main = .returned ∨ s.queue.main = .threw) then
    some { s with lifetime := Lifetime.destroyed.afterThreads s.threads }
  else none

/-- A step of `run`, of its threads or of whoever destroys the object. -/
def ProducerConsumerQueueTest.step (s : ProducerConsumerQueueTest producerCount consumerCount) :
    TestAction producerCount consumerCount →
      Option (ProducerConsumerQueueTest producerCount consumerCount)
  | .run action => s.run action
  | .destroy => s.destroy

/-- The object, from its construction on. -/
def testMachine (producerCount consumerCount : Nat) :
    transition.Machine (ProducerConsumerQueueTest producerCount consumerCount)
      (TestAction producerCount consumerCount) where
  init s := ∃ stop, s = { queue := { stop } }
  step := ProducerConsumerQueueTest.step

/-- The object goes through nothing but runs of the queue. -/
theorem test_simulates : (testMachine producerCount consumerCount).Simulates
    (queueMachine producerCount consumerCount) (fun s queue => s.queue = queue) where
  init := by
    rintro s ⟨stop, rfl⟩
    exact ⟨{ stop }, ⟨stop, rfl⟩, rfl⟩
  step := by
    rintro s action next queue _ rfl hstep
    cases action with
    | run action =>
      simp only [testMachine, ProducerConsumerQueueTest.step, ProducerConsumerQueueTest.run,
        Option.ite_none_right_eq_some, Option.map_eq_some_iff] at hstep
      obtain ⟨_, queue, hqueue, rfl⟩ := hstep
      refine ⟨[action], queue, ?_, ?_⟩
      · rw [transition.Machine.run]
        exact Option.bind_eq_some_iff.mpr ⟨queue, hqueue, rfl⟩
      · cases action <;> rfl
    | destroy =>
      simp only [testMachine, ProducerConsumerQueueTest.step, ProducerConsumerQueueTest.destroy,
        Option.ite_none_right_eq_some, Option.some.injEq] at hstep
      obtain ⟨_, rfl⟩ := hstep
      exact ⟨[], s.queue, rfl, rfl⟩

/-- What becomes of a thread, apart from what it does. -/
inductive ThreadStatus where
  | notCreated
  | running
  | exited
  deriving DecidableEq, Repr

/-- Whether the producer runs. -/
def ProducerPhase.status : ProducerPhase → ThreadStatus
  | .notCreated => .notCreated
  | .testingStop | .pushing | .notifying => .running
  | .exited => .exited

/-- Whether the consumer runs. -/
def ConsumerPhase.status : ConsumerPhase producerCount → ThreadStatus
  | .notCreated => .notCreated
  | .locking | .testingStop | .testingPredicate | .blocked | .woken _ | .testingEmpty
    | .foundEmpty | .popping | .logging .. => .running
  | .exited => .exited

/-- The thread at a position of the creations, the producers before the consumers. -/
def State.status (s : State producerCount consumerCount) (position : Nat) : ThreadStatus :=
  if h : position < producerCount then (s.producers ⟨position, h⟩).status
  else if h : position - producerCount < consumerCount then
    (s.consumers ⟨position - producerCount, h⟩).status
  else .notCreated

/-- The creation that `run` is at, and where it goes on from there. -/
inductive MainPhase.Creating (producerCount consumerCount : Nat) : MainPhase → Nat → Prop where
  | producer {producerId : Nat} (hless : producerId < producerCount) :
      Creating producerCount consumerCount (.creatingProducer producerId) producerId
  | consumer {consumerId : Nat} (hless : consumerId < consumerCount) :
      Creating producerCount consumerCount (.creatingConsumer consumerId)
        (producerCount + consumerId)

/-- Where `run` goes on when a creation succeeds. -/
def MainPhase.next : MainPhase → MainPhase
  | .creatingProducer producerId => .creatingProducer (producerId + 1)
  | .creatingConsumer consumerId => .creatingConsumer (consumerId + 1)
  | .joining index => .joining index
  | .returned => .returned
  | .threw => .threw

/-- Everything that a step of the object can do. What the last loop of `run` does to
its vector is left to `mainStep`. -/
inductive ProducerConsumerQueueTest.Move
    (s : ProducerConsumerQueueTest producerCount consumerCount) :
    TestAction producerCount consumerCount →
      ProducerConsumerQueueTest producerCount consumerCount → Prop where
  | work {action : Action producerCount consumerCount} {queue : State producerCount consumerCount}
      (hmain : queue.main = s.queue.main) (hstatus : ∀ position,
        s.queue.status position ≠ .running → queue.status position = s.queue.status position) :
      Move s (.run action) { s with queue }
  | create {position : Nat} {queue : State producerCount consumerCount}
      (hcreating : s.queue.main.Creating producerCount consumerCount position)
      (hnext : queue.main = s.queue.main.next)
      (hstatus : ∀ other, other ≠ position → queue.status other = s.queue.status other) :
      Move s (.run (.mainStep true)) { s with queue, threads := s.threads ++ [true] }
  | fail {position : Nat}
      (hcreating : s.queue.main.Creating producerCount consumerCount position) :
      Move s (.run (.mainStep false))
        { s with queue := { s.queue with main := .threw }, failed := some position }
  | goOn {producerId : Nat} {succeeds : Bool} (hmain : s.queue.main = .creatingProducer producerId)
      (hall : producerCount ≤ producerId) :
      Move s (.run (.mainStep succeeds)) { s with
        queue := { s.queue with main := .creatingConsumer 0 } }
  | swap {consumerId : Nat} {succeeds : Bool} (hmain : s.queue.main = .creatingConsumer consumerId)
      (hall : consumerCount ≤ consumerId) :
      Move s (.run (.mainStep succeeds)) { s with
        queue := { s.queue with main := .joining 0 }
        threads := s.localThreads
        localThreads := s.threads }
  | join {index : Nat} {succeeds : Bool} (hmain : s.queue.main = .joining index)
      (hless : index < producerCount + consumerCount) (hexited : s.queue.status index = .exited) :
      Move s (.run (.mainStep succeeds)) { s.mainStep succeeds with
        queue := { s.queue with main := .joining (index + 1) } }
  | leave {index : Nat} {succeeds : Bool} (hmain : s.queue.main = .joining index)
      (hall : producerCount + consumerCount ≤ index) :
      Move s (.run (.mainStep succeeds)) { s.mainStep succeeds with
        queue := { s.queue with main := .returned } }
  | destroy (hleft : s.queue.main = .returned ∨ s.queue.main = .threw) :
      Move s .destroy { s with lifetime := Lifetime.destroyed.afterThreads s.threads }

/-- A step of one producer leaves alone the others, and itself if it does not run. -/
theorem update_producers {producers : Fin producerCount → ProducerPhase}
    {producerId mover : Fin producerCount} {phase : ProducerPhase}
    (hmover : (producers mover).status = .running)
    (hstill : (producers producerId).status ≠ .running) :
    Function.update producers mover phase producerId = producers producerId := by
  refine threads.update_of_phase_ne rfl fun hsame => ?_
  rw [hsame] at hmover
  exact hstill hmover

/-- A step of a running consumer leaves every consumer that is not running as it is. -/
theorem update_consumers {consumers : Fin consumerCount → ConsumerPhase producerCount}
    {consumerId mover : Fin consumerCount} {phase : ConsumerPhase producerCount}
    (hmover : (consumers mover).status = .running)
    (hstill : (consumers consumerId).status ≠ .running) :
    Function.update consumers mover phase consumerId = consumers consumerId := by
  refine threads.update_of_phase_ne rfl fun hsame => ?_
  rw [hsame] at hmover
  exact hstill hmover

/-- A consumer's step leaves the producers alone. -/
theorem State.producers_consumerStep {s next : State producerCount consumerCount}
    {consumerId : Fin consumerCount} {now : Int}
    (hstep : s.consumerStep consumerId now = some next) : next.producers = s.producers := by
  cases hphase : s.consumers consumerId with
  | locking | woken timedOut =>
    simp only [State.consumerStep, hphase, State.lock, Option.ite_none_right_eq_some,
      Option.some.injEq] at hstep
    obtain ⟨_, rfl⟩ := hstep
    rfl
  | testingStop | testingPredicate | testingEmpty | foundEmpty =>
    simp only [State.consumerStep, hphase] at hstep
    split_ifs at hstep <;> cases hstep <;> rfl
  | popping =>
    simp only [State.consumerStep, hphase] at hstep
    split at hstep <;> cases hstep
    rfl
  | logging poppedItem workItemsSize =>
    simp only [State.consumerStep, hphase, Option.some.injEq] at hstep
    subst hstep
    rfl
  | notCreated | blocked | exited => simp [State.consumerStep, hphase] at hstep

/-- Only `run` brings a producer into being, and no step brings one back. -/
theorem State.producers_of_step {s next : State producerCount consumerCount}
    {action : Action producerCount consumerCount} (hstep : s.step action = some next)
    (hother : ∀ succeeds, action ≠ .mainStep succeeds) {producerId : Fin producerCount}
    (hstill : (s.producers producerId).status ≠ .running) :
    next.producers producerId = s.producers producerId := by
  cases action with
  | setStop =>
    cases hstep
    rfl
  | mainStep succeeds => exact absurd rfl (hother succeeds)
  | producerStep mover now =>
    cases hbefore : s.producers mover with
    | testingStop =>
      simp only [State.step, State.producerStep, hbefore, Option.some.injEq] at hstep
      subst hstep
      exact update_producers (hbefore ▸ rfl) hstill
    | pushing =>
      simp only [State.step, State.producerStep, hbefore] at hstep
      split_ifs at hstep <;> cases hstep <;> exact update_producers (hbefore ▸ rfl) hstill
    | notCreated | notifying | exited => simp [State.step, State.producerStep, hbefore] at hstep
  | notifyOne mover target =>
    simp only [State.step, State.notifyOne, Option.ite_none_right_eq_some,
      Option.some.injEq] at hstep
    obtain ⟨⟨hbefore, _⟩, rfl⟩ := hstep
    exact update_producers (hbefore ▸ rfl) hstill
  | consumerStep consumerId now =>
    rw [State.producers_consumerStep hstep]
  | timeout consumerId | spuriousWake consumerId =>
    simp only [State.step, State.wake, Option.ite_none_right_eq_some, Option.some.injEq] at hstep
    obtain ⟨_, rfl⟩ := hstep
    rfl

/-- A consumer outside the queue is running. -/
theorem ConsumerPhase.status_of_outside {phase : ConsumerPhase producerCount}
    (h : phase.outside = true) : phase.status = .running := by
  cases phase with
  | locking | blocked | woken | logging => rfl
  | _ => cases h

/-- A consumer that holds the mutex is running. -/
theorem ConsumerPhase.status_of_holds {phase : ConsumerPhase producerCount}
    (h : phase.holds = true) : phase.status = .running := by
  cases phase with
  | testingStop | testingPredicate | testingEmpty | foundEmpty | popping => rfl
  | _ => cases h

/-- A step of another thread leaves `main` and every consumer that is not running as they are. -/
theorem State.consumers_of_step {s next : State producerCount consumerCount}
    {action : Action producerCount consumerCount} (hstep : s.step action = some next)
    (hother : ∀ succeeds, action ≠ .mainStep succeeds) :
    next.main = s.main ∧ ∀ consumerId, (s.consumers consumerId).status ≠ .running →
      next.consumers consumerId = s.consumers consumerId := by
  cases State.move_of_step hstep with
  | outside hconsumers =>
    refine ⟨rfl, fun consumerId hstill => ?_⟩
    obtain hsame | ⟨hbefore, _⟩ := hconsumers consumerId
    · exact hsame
    · exact absurd (ConsumerPhase.status_of_outside hbefore) hstill
  | run | create => exact absurd rfl (hother _)
  | push => exact ⟨rfl, fun _ _ => rfl⟩
  | lock hbefore =>
    exact ⟨rfl, fun _ => update_consumers (ConsumerPhase.status_of_outside hbefore)⟩
  | within hbefore => exact ⟨rfl, fun _ => update_consumers (ConsumerPhase.status_of_holds hbefore)⟩
  | block hbefore | pop hbefore => exact ⟨rfl, fun _ => update_consumers (hbefore ▸ rfl)⟩
  | exit _ hbefore =>
    exact ⟨rfl, fun _ => update_consumers
      (ConsumerPhase.status_of_holds (ConsumerPhase.holds_of_exits hbefore))⟩

/-- A step of another thread leaves the status of a position that is not running as it is. -/
theorem State.status_of_step {s next : State producerCount consumerCount}
    {action : Action producerCount consumerCount} (hstep : s.step action = some next)
    (hother : ∀ succeeds, action ≠ .mainStep succeeds) {position : Nat}
    (hstill : s.status position ≠ .running) : next.status position = s.status position := by
  unfold State.status at hstill ⊢
  split_ifs at hstill ⊢
  · rw [State.producers_of_step hstep hother hstill]
  · rw [(State.consumers_of_step hstep hother).2 _ hstill]
  · rfl

theorem State.status_setProducer {s : State producerCount consumerCount}
    {producerId : Fin producerCount} {phase : ProducerPhase} {main : MainPhase} {position : Nat}
    (hother : position ≠ producerId) :
    State.status { s.setProducer producerId phase with main } position = s.status position := by
  unfold State.status
  split_ifs with hproducer
  · have hne : (⟨position, hproducer⟩ : Fin producerCount) ≠ producerId :=
      fun heq => hother (congrArg Fin.val heq)
    exact congrArg ProducerPhase.status (Function.update_of_ne hne ..)
  · rfl
  · rfl

theorem State.status_setConsumer {s : State producerCount consumerCount}
    {consumerId : Fin consumerCount} {phase : ConsumerPhase producerCount} {main : MainPhase}
    {position : Nat} (hother : position ≠ producerCount + consumerId) :
    State.status { s.setConsumer consumerId phase with main } position = s.status position := by
  unfold State.status
  split_ifs with hproducer hconsumer
  · rfl
  · have hne : (⟨position - producerCount, hconsumer⟩ : Fin consumerCount) ≠ consumerId := by
      intro heq
      have hval : position - producerCount = consumerId := congrArg Fin.val heq
      omega
    exact congrArg ConsumerPhase.status (Function.update_of_ne hne ..)
  · rfl

theorem ProducerConsumerQueueTest.move_of_mainStep
    {s : ProducerConsumerQueueTest producerCount consumerCount}
    {queue : State producerCount consumerCount} {succeeds : Bool}
    (hstep : s.queue.mainStep succeeds = some queue) :
    s.Move (.run (.mainStep succeeds)) { s.mainStep succeeds with queue } := by
  cases hmain : s.queue.main with
  | creatingProducer producerId =>
    simp only [State.mainStep, ProducerConsumerQueueTest.mainStep,
      ProducerConsumerQueueTest.emplaceBack, hmain] at hstep ⊢
    split_ifs at hstep ⊢ with hless hsucceeds
    · cases hstep
      subst hsucceeds
      exact .create (hmain ▸ .producer hless) (hmain ▸ rfl) fun other hother =>
        State.status_setProducer hother
    · cases hstep
      rw [Bool.not_eq_true] at hsucceeds
      subst hsucceeds
      exact .fail (hmain ▸ .producer hless)
    · cases hstep
      exact .goOn hmain (Nat.not_lt.mp hless)
  | creatingConsumer consumerId =>
    simp only [State.mainStep, ProducerConsumerQueueTest.mainStep,
      ProducerConsumerQueueTest.emplaceBack, hmain] at hstep ⊢
    split_ifs at hstep ⊢ with hless hsucceeds
    · cases hstep
      subst hsucceeds
      exact .create (hmain ▸ .consumer hless) (hmain ▸ rfl) fun other hother =>
        State.status_setConsumer hother
    · cases hstep
      rw [Bool.not_eq_true] at hsucceeds
      subst hsucceeds
      exact .fail (hmain ▸ .consumer hless)
    · cases hstep
      exact .swap hmain (Nat.not_lt.mp hless)
  | joining index =>
    simp only [State.mainStep, hmain] at hstep
    split_ifs at hstep with hproducer hexited hconsumer hexited
    · cases hstep
      exact .join hmain (by omega)
        (by simp [State.status, hproducer, hexited, ProducerPhase.status])
    · cases hstep
      exact .join hmain (by omega)
        (by simp [State.status, hproducer, hconsumer, hexited, ConsumerPhase.status])
    · cases hstep
      exact .leave hmain (by omega)
  | returned | threw => simp [State.mainStep, hmain] at hstep

/-- Every step of the test is one of its moves. -/
theorem ProducerConsumerQueueTest.move_of_step
    {s next : ProducerConsumerQueueTest producerCount consumerCount}
    {action : TestAction producerCount consumerCount} (hstep : s.step action = some next) :
    s.Move action next := by
  cases action with
  | run action =>
    simp only [ProducerConsumerQueueTest.step, ProducerConsumerQueueTest.run,
      Option.ite_none_right_eq_some, Option.map_eq_some_iff] at hstep
    obtain ⟨_, queue, hqueue, rfl⟩ := hstep
    cases action with
    | mainStep succeeds => exact ProducerConsumerQueueTest.move_of_mainStep hqueue
    | setStop | producerStep | notifyOne | consumerStep | timeout | spuriousWake =>
      have hmain := (State.consumers_of_step hqueue (by simp)).1
      exact .work hmain fun position => State.status_of_step hqueue (by simp)
  | destroy =>
    simp only [ProducerConsumerQueueTest.step, ProducerConsumerQueueTest.destroy,
      Option.ite_none_right_eq_some, Option.some.injEq] at hstep
    obtain ⟨⟨_, hleft⟩, rfl⟩ := hstep
    exact .destroy hleft

/-- The creations behind `run`, and the joins behind it. -/
def ProducerConsumerQueueTest.created
    (s : ProducerConsumerQueueTest producerCount consumerCount) : MainPhase → Nat
  | .creatingProducer producerId => producerId
  | .creatingConsumer consumerId => producerCount + consumerId
  | .joining _ | .returned => producerCount + consumerCount
  | .threw => s.failed.getD 0

/-- How many threads `run` has joined. -/
def MainPhase.joined (producerCount consumerCount : Nat) : MainPhase → Nat
  | .joining index => index
  | .returned => producerCount + consumerCount
  | .creatingProducer _ | .creatingConsumer _ | .threw => 0

/-- What the vectors hold at each point of `run`. -/
def ProducerConsumerQueueTest.Allows
    (s : ProducerConsumerQueueTest producerCount consumerCount) : MainPhase → Prop
  | .creatingProducer producerId => producerId ≤ producerCount ∧ s.failed = none ∧
      s.threads = List.replicate producerId true ∧ s.localThreads = []
  | .creatingConsumer consumerId => consumerId ≤ consumerCount ∧ s.failed = none ∧
      s.threads = List.replicate (producerCount + consumerId) true ∧ s.localThreads = []
  | .joining index => index ≤ producerCount + consumerCount ∧ s.failed = none ∧ s.threads = [] ∧
      s.localThreads = List.replicate index false ++
        List.replicate (producerCount + consumerCount - index) true
  | .returned => s.failed = none ∧ s.threads = []
  | .threw => ∃ position, s.failed = some position ∧ s.threads = List.replicate position true

/-- While a thread is being created, no creation has failed so far. -/
theorem ProducerConsumerQueueTest.Allows.creating
    {s : ProducerConsumerQueueTest producerCount consumerCount} {main : MainPhase} {position : Nat}
    (h : s.Allows main) (hcreating : main.Creating producerCount consumerCount position) :
    s.failed = none ∧ s.threads = List.replicate position true ∧ s.localThreads = [] ∧
      s.created main = position := by
  cases hcreating with
  | producer | consumer =>
    obtain ⟨_, hfailed, hthreads, hlocal⟩ := h
    exact ⟨hfailed, hthreads, hlocal, rfl⟩

/-- A creation that succeeds leads to a phase the test allows. -/
theorem ProducerConsumerQueueTest.allows_next
    {s : ProducerConsumerQueueTest producerCount consumerCount} {main : MainPhase} {position : Nat}
    (hcreating : main.Creating producerCount consumerCount position) (hfailed : s.failed = none)
    (hthreads : s.threads = List.replicate (position + 1) true) (hlocal : s.localThreads = []) :
    s.Allows main.next ∧ s.created main.next = position + 1 ∧
      main.next.joined producerCount consumerCount = 0 := by
  cases hcreating with
  | producer hless | consumer hless => exact ⟨⟨hless, hfailed, hthreads, hlocal⟩, rfl, rfl⟩

/-- A `run` that is creating threads has not thrown. -/
theorem MainPhase.Creating.ne_threw {main : MainPhase} {position : Nat}
    (h : main.Creating producerCount consumerCount position) : main ≠ .threw := by
  rintro rfl
  cases h

/-- What holds of the object and its threads at any time. -/
structure ProducerConsumerQueueTest.Sound
    (s : ProducerConsumerQueueTest producerCount consumerCount) : Prop where
  vectors : s.Allows s.queue.main
  terminated : s.lifetime = .terminated → s.queue.main = .threw ∧ true ∈ s.threads
  uncreated : ∀ position, s.created s.queue.main ≤ position →
    s.queue.status position = .notCreated
  joined : ∀ position, position < s.queue.main.joined producerCount consumerCount →
    s.queue.status position = .exited

/-- Joining the next thread makes the joined prefix one longer. -/
theorem replicate_set_joined {index count : Nat} (hless : index < count) :
    (List.replicate index false ++ List.replicate (count - index) true).set index false =
      List.replicate (index + 1) false ++ List.replicate (count - (index + 1)) true := by
  have hcount : count - index = count - (index + 1) + 1 := by omega
  rw [hcount, List.replicate_succ, List.replicate_succ', List.append_assoc]
  simp

/-- As long as nothing has been joined and the process is there. -/
theorem ProducerConsumerQueueTest.Sound.of_joined_eq_zero
    {s : ProducerConsumerQueueTest producerCount consumerCount} (hvectors : s.Allows s.queue.main)
    (hruns : s.lifetime ≠ .terminated) (huncreated : ∀ position,
      s.created s.queue.main ≤ position → s.queue.status position = .notCreated)
    (hjoined : s.queue.main.joined producerCount consumerCount = 0) : s.Sound := by
  refine ⟨hvectors, fun hended => absurd hended hruns, huncreated, fun position hearlier => ?_⟩
  rw [hjoined] at hearlier
  exact absurd hearlier (Nat.not_lt_zero _)

/-- Each step of the test keeps the invariant. -/
theorem ProducerConsumerQueueTest.Sound.step
    {s next : ProducerConsumerQueueTest producerCount consumerCount}
    {action : TestAction producerCount consumerCount} (h : s.Sound)
    (hstep : s.step action = some next) : next.Sound := by
  obtain ⟨hvectors, hterminated, huncreated, hjoined⟩ := h
  have hruns {main : MainPhase} (hmain : s.queue.main = main) (hthrew : main ≠ .threw) :
      s.lifetime ≠ .terminated :=
    fun hended => hthrew (hmain.symm.trans (hterminated hended).1)
  cases ProducerConsumerQueueTest.move_of_step hstep with
  | @work action queue hmain hstatus =>
    refine ⟨hmain ▸ hvectors, hmain ▸ hterminated, fun position hlater => ?_,
      fun position hearlier => ?_⟩
    · have hbefore := huncreated position (hmain ▸ hlater)
      exact (hstatus position (by simp [hbefore])).trans hbefore
    · have hbefore := hjoined position (hmain ▸ hearlier)
      exact (hstatus position (by simp [hbefore])).trans hbefore
  | @create position queue hcreating hnext hstatus =>
    obtain ⟨hfailed, hthreads, hlocal, hcreated⟩ := hvectors.creating hcreating
    have hlonger : s.threads ++ [true] = List.replicate (position + 1) true := by
      rw [hthreads, List.replicate_succ']
    obtain ⟨hallows, hcreatedNext, hjoinedNext⟩ := ProducerConsumerQueueTest.allows_next
      (s := { s with queue, threads := s.threads ++ [true] }) hcreating hfailed hlonger hlocal
    refine .of_joined_eq_zero (hnext ▸ hallows) (hruns rfl hcreating.ne_threw)
      (fun other hlater => ?_) (hnext ▸ hjoinedNext)
    rw [hnext, hcreatedNext] at hlater
    rw [hcreated] at huncreated
    exact (hstatus other (by omega)).trans (huncreated other (by omega))
  | @fail position hcreating =>
    obtain ⟨_, hthreads, _, hcreated⟩ := hvectors.creating hcreating
    rw [hcreated] at huncreated
    exact .of_joined_eq_zero ⟨position, rfl, hthreads⟩ (hruns rfl hcreating.ne_threw) huncreated rfl
  | goOn hmain hall =>
    have halive := hruns hmain (by simp)
    rw [hmain] at hvectors huncreated
    obtain ⟨hle, hfailed, hthreads, hlocal⟩ := hvectors
    have hcount := Nat.le_antisymm hle hall
    subst hcount
    exact .of_joined_eq_zero ⟨Nat.zero_le _, hfailed, hthreads, hlocal⟩ halive huncreated rfl
  | swap hmain hall =>
    have halive := hruns hmain (by simp)
    rw [hmain] at hvectors huncreated
    obtain ⟨hle, hfailed, hthreads, hlocal⟩ := hvectors
    have hcount := Nat.le_antisymm hle hall
    subst hcount
    exact .of_joined_eq_zero ⟨Nat.zero_le _, hfailed, hlocal, by simp [hthreads]⟩ halive
      huncreated rfl
  | @join index succeeds hmain hless hexited =>
    have halive := hruns hmain (by simp)
    rw [hmain] at hvectors huncreated hjoined
    obtain ⟨_, hfailed, hthreads, hlocal⟩ := hvectors
    have hinside : index < s.localThreads.length := by
      simp only [hlocal, List.length_append, List.length_replicate]
      omega
    simp only [ProducerConsumerQueueTest.mainStep, hmain, if_pos hinside]
    refine ⟨⟨hless, hfailed, hthreads, ?_⟩, fun hended => absurd hended halive, huncreated,
      fun position hearlier => ?_⟩
    · rw [hlocal]
      exact replicate_set_joined hless
    · obtain hbefore | rfl := Nat.lt_succ_iff_lt_or_eq.mp hearlier
      · exact hjoined position hbefore
      · exact hexited
  | @leave index succeeds hmain hall =>
    have halive := hruns hmain (by simp)
    rw [hmain] at hvectors huncreated hjoined
    obtain ⟨hle, hfailed, hthreads, hlocal⟩ := hvectors
    have hcount := Nat.le_antisymm hle hall
    subst hcount
    have houtside : ¬ producerCount + consumerCount < s.localThreads.length := by simp [hlocal]
    have hlifetime : s.lifetime.afterThreads s.localThreads = s.lifetime := by
      simp [Lifetime.afterThreads, hlocal]
    simp only [ProducerConsumerQueueTest.mainStep, hmain, if_neg houtside, hlifetime]
    exact ⟨⟨hfailed, hthreads⟩, fun hended => absurd hended halive, huncreated, hjoined⟩
  | destroy hleft =>
    refine ⟨hvectors, fun hended => ?_, huncreated, hjoined⟩
    have hjoinable : true ∈ s.threads := by
      by_contra hnone
      simp [Lifetime.afterThreads, hnone] at hended
    refine ⟨hleft.resolve_left fun hreturned => ?_, hjoinable⟩
    rw [hreturned] at hvectors
    rw [hvectors.2] at hjoinable
    cases hjoinable

/-- The invariant holds in every reachable state of the test. -/
theorem ProducerConsumerQueueTest.sound
    {s : ProducerConsumerQueueTest producerCount consumerCount}
    (hreach : (testMachine producerCount consumerCount).Reachable s) : s.Sound := by
  refine transition.Machine.Reachable.invariant (I := ProducerConsumerQueueTest.Sound) ?_ ?_ hreach
  · rintro s ⟨stop, rfl⟩
    refine ⟨⟨Nat.zero_le _, rfl, rfl, rfl⟩, fun hended => absurd hended (by simp),
      fun position _ => ?_, fun position hearlier => absurd hearlier (Nat.not_lt_zero _)⟩
    unfold State.status
    split_ifs <;> rfl
  · exact fun s action next h hstep => h.step hstep

/-- A call of `run` that returns leaves no thread behind, and the object can be destroyed. -/
theorem ProducerConsumerQueueTest.leaves_none_of_returned
    {s : ProducerConsumerQueueTest producerCount consumerCount}
    (hreach : (testMachine producerCount consumerCount).Reachable s)
    (hreturned : s.queue.main = .returned) : true ∉ s.threads ∧ s.lifetime ≠ .terminated ∧
      ∀ position, position < producerCount + consumerCount →
        s.queue.status position = .exited := by
  obtain ⟨hvectors, hterminated, _, hjoined⟩ := ProducerConsumerQueueTest.sound hreach
  rw [hreturned] at hvectors hterminated hjoined
  refine ⟨?_, fun hended => ?_, hjoined⟩
  · rw [hvectors.2]
    exact List.not_mem_nil
  · cases (hterminated hended).1

/-- After a failed creation `run` has thrown, and the threads created before are joinable. -/
theorem ProducerConsumerQueueTest.Sound.threw_of_failed
    {s : ProducerConsumerQueueTest producerCount consumerCount} (h : s.Sound) {position : Nat}
    (hfailed : s.failed = some position) :
    s.queue.main = .threw ∧ s.threads = List.replicate position true := by
  have hvectors := h.vectors
  cases hmain : s.queue.main with
  | threw =>
    rw [hmain] at hvectors
    obtain ⟨other, hother, hthreads⟩ := hvectors
    rw [hfailed] at hother
    cases hother
    exact ⟨rfl, hthreads⟩
  | creatingProducer | creatingConsumer | joining =>
    rw [hmain] at hvectors
    exact absurd (hfailed.symm.trans hvectors.2.1) (by simp)
  | returned =>
    rw [hmain] at hvectors
    exact absurd (hfailed.symm.trans hvectors.1) (by simp)

/-- A step of `run` is a step of the test, which keeps the record of the threads. -/
theorem ProducerConsumerQueueTest.step_mainStep
    {s : ProducerConsumerQueueTest producerCount consumerCount}
    {queue : State producerCount consumerCount} (halive : s.lifetime = .alive) (succeeds : Bool)
    (hqueue : s.queue.mainStep succeeds = some queue) :
    (testMachine producerCount consumerCount).step s (.run (.mainStep succeeds)) =
      some { s.mainStep succeeds with queue } := by
  simp [testMachine, ProducerConsumerQueueTest.step, ProducerConsumerQueueTest.run, halive,
    State.step, hqueue]

/-- A creation that succeeds leads to the next. -/
theorem ProducerConsumerQueueTest.exists_create
    {s : ProducerConsumerQueueTest producerCount consumerCount}
    (hreach : (testMachine producerCount consumerCount).Reachable s) (halive : s.lifetime = .alive)
    {position : Nat} (hcreating : s.queue.main.Creating producerCount consumerCount position) :
    ∃ next, (testMachine producerCount consumerCount).Reachable next ∧ next.lifetime = .alive ∧
      next.queue.main = s.queue.main.next := by
  generalize hmain : s.queue.main = main at hcreating
  cases hcreating with
  | producer hless | consumer hless =>
    have hstep := ProducerConsumerQueueTest.step_mainStep halive true
      (by simp only [State.mainStep, hmain, dif_pos hless, if_true]; rfl)
    refine ⟨_, hreach.step hstep, ?_, rfl⟩
    simp [ProducerConsumerQueueTest.mainStep, ProducerConsumerQueueTest.emplaceBack, hmain, hless,
      halive]

/-- Each of the creations can be come to. -/
theorem exists_creating (position : Fin (producerCount + consumerCount)) :
    ∃ s, (testMachine producerCount consumerCount).Reachable s ∧ s.lifetime = .alive ∧
      s.queue.main.Creating producerCount consumerCount position := by
  have hproducers (count : Nat) (hle : count ≤ producerCount) :
      ∃ s, (testMachine producerCount consumerCount).Reachable s ∧ s.lifetime = .alive ∧
        s.queue.main = .creatingProducer count := by
    induction count with
    | zero => exact ⟨{}, .init ⟨false, rfl⟩, rfl, rfl⟩
    | succ count ih =>
      obtain ⟨s, hreach, halive, hmain⟩ := ih (Nat.le_of_succ_le hle)
      have hcreating : s.queue.main.Creating producerCount consumerCount count :=
        hmain ▸ .producer (Nat.lt_of_succ_le hle)
      obtain ⟨next, hnext, hstill, hgone⟩ :=
        ProducerConsumerQueueTest.exists_create hreach halive hcreating
      exact ⟨next, hnext, hstill, by rw [hgone, hmain]; rfl⟩
  have hconsumers (count : Nat) (hle : count ≤ consumerCount) :
      ∃ s, (testMachine producerCount consumerCount).Reachable s ∧ s.lifetime = .alive ∧
        s.queue.main = .creatingConsumer count := by
    induction count with
    | zero =>
      obtain ⟨s, hreach, halive, hmain⟩ := hproducers producerCount le_rfl
      have hstep := ProducerConsumerQueueTest.step_mainStep halive true
        (by simp only [State.mainStep, hmain, dif_neg (Nat.lt_irrefl producerCount)]; rfl)
      refine ⟨_, hreach.step hstep, ?_, rfl⟩
      simp [ProducerConsumerQueueTest.mainStep, hmain, halive]
    | succ count ih =>
      obtain ⟨s, hreach, halive, hmain⟩ := ih (Nat.le_of_succ_le hle)
      have hcreating : s.queue.main.Creating producerCount consumerCount (producerCount + count) :=
        hmain ▸ .consumer (Nat.lt_of_succ_le hle)
      obtain ⟨next, hnext, hstill, hgone⟩ :=
        ProducerConsumerQueueTest.exists_create hreach halive hcreating
      exact ⟨next, hnext, hstill, by rw [hgone, hmain]; rfl⟩
  have hinside := position.isLt
  by_cases hproducer : position.val < producerCount
  · obtain ⟨s, hreach, halive, hmain⟩ := hproducers position hproducer.le
    exact ⟨s, hreach, halive, hmain ▸ .producer hproducer⟩
  · obtain ⟨s, hreach, halive, hmain⟩ := hconsumers (position - producerCount) (by omega)
    have hconsumer : MainPhase.Creating producerCount consumerCount
        (.creatingConsumer (position - producerCount))
        (producerCount + (position - producerCount)) := .consumer (by omega)
    rw [Nat.add_sub_cancel' (Nat.not_lt.mp hproducer)] at hconsumer
    exact ⟨s, hreach, halive, hmain ▸ hconsumer⟩

/-- A creation that fails makes `run` throw. -/
theorem ProducerConsumerQueueTest.mainStep_false
    {s : ProducerConsumerQueueTest producerCount consumerCount} {position : Nat}
    (hcreating : s.queue.main.Creating producerCount consumerCount position) :
    s.queue.mainStep false = some { s.queue with main := .threw } ∧
      s.mainStep false = { s with failed := some position } := by
  unfold State.mainStep ProducerConsumerQueueTest.mainStep
  generalize s.queue.main = main at hcreating
  cases hcreating with
  | producer hless | consumer hless =>
    refine ⟨?_, ?_⟩
    · simp only [dif_pos hless]
      rfl
    · simp only [if_pos hless]
      rfl

/-- A creation can fail at every position. -/
theorem exists_failed (position : Fin (producerCount + consumerCount)) :
    ∃ s, (testMachine producerCount consumerCount).Reachable s ∧
      s.failed = some position.val ∧ s.lifetime = .alive := by
  obtain ⟨s, hreach, halive, hcreating⟩ := exists_creating position
  obtain ⟨hqueue, hvectors⟩ := ProducerConsumerQueueTest.mainStep_false hcreating
  have hstep := ProducerConsumerQueueTest.step_mainStep halive false hqueue
  rw [hvectors] at hstep
  exact ⟨_, hreach.step hstep, rfl, halive⟩

/-- Behind a failure with threads before it, the destructor ends the process. -/
theorem ProducerConsumerQueueTest.terminated_of_destroy
    {s next : ProducerConsumerQueueTest producerCount consumerCount}
    (hreach : (testMachine producerCount consumerCount).Reachable s) {position : Nat}
    (hfailed : s.failed = some position) (hlater : position ≠ 0)
    (hstep : s.destroy = some next) : next.lifetime = .terminated := by
  obtain ⟨_, hthreads⟩ := (ProducerConsumerQueueTest.sound hreach).threw_of_failed hfailed
  simp only [ProducerConsumerQueueTest.destroy, Option.ite_none_right_eq_some,
    Option.some.injEq] at hstep
  obtain ⟨_, rfl⟩ := hstep
  have hjoinable : true ∈ s.threads := by simp [hthreads, hlater]
  exact if_pos hjoinable

/-- When the creation at this position fails, `run` leaves by the exception, with the
threads created before it joined: none of them runs, and the object can be destroyed. -/
structure LeavesNoThread (position : Fin (producerCount + consumerCount)) : Prop where
  throws : ∀ s, (testMachine producerCount consumerCount).Reachable s →
    s.failed = some position.val → s.queue.main = .threw
  unjoinable : ∀ s, (testMachine producerCount consumerCount).Reachable s →
    s.failed = some position.val → true ∉ s.threads
  ended : ∀ s, (testMachine producerCount consumerCount).Reachable s →
    s.failed = some position.val → ∀ other, s.queue.status other ≠ .running
  survives : ∀ s, (testMachine producerCount consumerCount).Reachable s →
    s.failed = some position.val → s.lifetime ≠ .terminated

/-- `run` leaves no thread behind only if it is the first creation that fails. -/
theorem leavesNoThread_iff (position : Fin (producerCount + consumerCount)) :
    LeavesNoThread position ↔ position.val = 0 := by
  constructor
  · intro hleaves
    by_contra hlater
    obtain ⟨s, hreach, hfailed, _⟩ := exists_failed position
    obtain ⟨_, hthreads⟩ := (ProducerConsumerQueueTest.sound hreach).threw_of_failed hfailed
    have hjoinable : true ∈ s.threads := by simp [hthreads, hlater]
    exact hleaves.unjoinable s hreach hfailed hjoinable
  · intro hfirst
    have hnone {s : ProducerConsumerQueueTest producerCount consumerCount}
        (hreach : (testMachine producerCount consumerCount).Reachable s)
        (hfailed : s.failed = some position.val) : s.queue.main = .threw ∧ s.threads = [] := by
      rw [hfirst] at hfailed
      exact (ProducerConsumerQueueTest.sound hreach).threw_of_failed hfailed
    constructor
    · exact fun s hreach hfailed => (hnone hreach hfailed).1
    · intro s hreach hfailed
      simp [(hnone hreach hfailed).2]
    · intro s hreach hfailed other hrunning
      have huncreated := (ProducerConsumerQueueTest.sound hreach).uncreated other
      simp [(hnone hreach hfailed).1, ProducerConsumerQueueTest.created, hfailed, hfirst,
        hrunning] at huncreated
    · intro s hreach hfailed hended
      have hjoinable := ((ProducerConsumerQueueTest.sound hreach).terminated hended).2
      rw [(hnone hreach hfailed).2] at hjoinable
      cases hjoinable

/-- The second of two producers cannot be created: the first one is never joined, and
the object ends the process. -/
theorem exists_thread_left :
    (∃ s, (testMachine 2 2).Reachable s ∧ s.failed = some 1 ∧ s.queue.main = .threw ∧
      s.threads = [true] ∧ s.queue.producers 0 = .pushing ∧ s.lifetime = .terminated) ∧
    ¬ LeavesNoThread (1 : Fin (2 + 2)) := by
  obtain ⟨s, hreach, hcheck⟩ := transition.Machine.exists_reachable_of_run
    (M := testMachine 2 2) (s := {}) ⟨false, rfl⟩
    [.run (.mainStep true), .run (.mainStep false), .run (.producerStep 0 5), .destroy]
    (fun s => s.failed = some 1 ∧ s.queue.main = .threw ∧ s.threads = [true] ∧
      s.queue.producers 0 = .pushing ∧ s.lifetime = .terminated) (by decide)
  have hleft := of_decide_eq_true hcheck
  exact ⟨⟨s, hreach, hleft⟩, fun hleaves =>
    hleaves.survives s hreach hleft.1 hleft.2.2.2.2⟩

end spdlogger.producer_consumer_queue
