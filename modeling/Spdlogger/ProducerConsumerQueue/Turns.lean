import Spdlogger.ProducerConsumerQueue.Step

namespace spdlogger.producer_consumer_queue

variable {producerCount consumerCount : Nat}

/-- What a step of a producer does to its phase. -/
inductive ProducerPhase.Flows (stop : Bool) : ProducerPhase → ProducerPhase → Prop where
  | exit (hstop : stop = true) : Flows stop .testingStop .exited
  | goOn (hstop : stop = false) : Flows stop .testingStop .pushing
  | push : Flows stop .pushing .notifying
  | full : Flows stop .pushing .testingStop

/-- What a step of a consumer, or the end of its wait, does to its phase. -/
inductive ConsumerPhase.Flows (stop : Bool) :
    ConsumerPhase producerCount → ConsumerPhase producerCount → Prop where
  | lock : Flows stop .locking .testingStop
  | exit (hstop : stop = true) : Flows stop .testingStop .exited
  | goOn (hstop : stop = false) : Flows stop .testingStop .testingPredicate
  | pass : Flows stop .testingPredicate .testingEmpty
  | block (hstop : stop = false) : Flows stop .testingPredicate .blocked
  | wake (timedOut : Bool) : Flows stop .blocked (.woken timedOut)
  | testAgain : Flows stop (.woken false) .testingPredicate
  | giveUp : Flows stop (.woken true) .testingEmpty
  | findNothing : Flows stop .testingEmpty .foundEmpty
  | findItem : Flows stop .testingEmpty .popping
  | leave (hstop : stop = true) : Flows stop .foundEmpty .exited
  | repeat (hstop : stop = false) : Flows stop .foundEmpty .testingStop
  | pop (poppedItem : WorkItem producerCount) (workItemsSize : Nat) :
      Flows stop .popping (.logging poppedItem workItemsSize)
  | log (poppedItem : WorkItem producerCount) (workItemsSize : Nat) :
      Flows stop (.logging poppedItem workItemsSize) .locking

/-- What a step does to the phases of the threads and of `run`. -/
inductive State.Turn (s : State producerCount consumerCount) :
    Action producerCount consumerCount → State producerCount consumerCount → Prop where
  | setStop : Turn s .setStop { s with stop := true }
  | produce {next : State producerCount consumerCount} (producerId : Fin producerCount)
      (now : Int) (phase : ProducerPhase)
      (hflows : ProducerPhase.Flows s.stop (s.producers producerId) phase)
      (hproducers : next.producers = Function.update s.producers producerId phase)
      (hconsumers : next.consumers = s.consumers) (hmain : next.main = s.main)
      (hstop : next.stop = s.stop) : Turn s (.producerStep producerId now) next
  | notify (producerId : Fin producerCount) (target : Option (Fin consumerCount))
      (hphase : s.producers producerId = .notifying)
      (hpicks : (workItemsCv producerCount).Picks s.consumers target) :
      Turn s (.notifyOne producerId target) { s.setProducer producerId .testingStop with
        consumers := (workItemsCv producerCount).notifyOne s.consumers target }
  | consume {action : Action producerCount consumerCount} {next : State producerCount consumerCount}
      (consumerId : Fin consumerCount) (phase : ConsumerPhase producerCount)
      (haction : ∀ succeeds, action ≠ .mainStep succeeds)
      (hflows : ConsumerPhase.Flows s.stop (s.consumers consumerId) phase)
      (hproducers : next.producers = s.producers)
      (hconsumers : next.consumers = Function.update s.consumers consumerId phase)
      (hmain : next.main = s.main) (hstop : next.stop = s.stop) : Turn s action next
  | createProducer (producerId : Nat) (hless : producerId < producerCount)
      (hmain : s.main = .creatingProducer producerId) :
      Turn s (.mainStep true) { s.setProducer ⟨producerId, hless⟩ .testingStop with
        main := .creatingProducer (producerId + 1) }
  | createConsumer (consumerId : Nat) (hless : consumerId < consumerCount)
      (hmain : s.main = .creatingConsumer consumerId) :
      Turn s (.mainStep true) { s.setConsumer ⟨consumerId, hless⟩ .locking with
        main := .creatingConsumer (consumerId + 1) }
  | fail (hcreating : (∃ producerId, s.main = .creatingProducer producerId) ∨
        ∃ consumerId, s.main = .creatingConsumer consumerId) :
      Turn s (.mainStep false) { s with main := .threw }
  | producersCreated (succeeds : Bool) (producerId : Nat)
      (hmain : s.main = .creatingProducer producerId) (hall : producerCount ≤ producerId) :
      Turn s (.mainStep succeeds) { s with main := .creatingConsumer 0 }
  | consumersCreated (succeeds : Bool) (consumerId : Nat)
      (hmain : s.main = .creatingConsumer consumerId) (hall : consumerCount ≤ consumerId) :
      Turn s (.mainStep succeeds) { s with main := .joining 0 }
  | join (succeeds : Bool) (index : Nat) (hmain : s.main = .joining index)
      (hless : index < producerCount + consumerCount) :
      Turn s (.mainStep succeeds) { s with main := .joining (index + 1) }
  | return (succeeds : Bool) (index : Nat) (hmain : s.main = .joining index)
      (hall : producerCount + consumerCount ≤ index) :
      Turn s (.mainStep succeeds) { s with main := .returned }

theorem State.turn_of_producerStep {s next : State producerCount consumerCount}
    {producerId : Fin producerCount} {now : Int}
    (hstep : s.producerStep producerId now = some next) :
    s.Turn (.producerStep producerId now) next := by
  cases hphase : s.producers producerId with
  | testingStop =>
    simp only [State.producerStep, hphase, Option.some.injEq] at hstep
    subst hstep
    cases hstop : s.stop with
    | true => exact .produce producerId now .exited (hphase ▸ hstop ▸ .exit rfl) rfl rfl rfl rfl
    | false => exact .produce producerId now .pushing (hphase ▸ hstop ▸ .goOn rfl) rfl rfl rfl rfl
  | pushing =>
    simp only [State.producerStep, hphase] at hstep
    split_ifs at hstep with hfree hroom
    · cases hstep
      exact .produce producerId now .notifying (hphase ▸ .push) rfl rfl rfl rfl
    · cases hstep
      exact .produce producerId now .testingStop (hphase ▸ .full) rfl rfl rfl rfl
  | notCreated | notifying | exited => simp [State.producerStep, hphase] at hstep

/-- A consumer that takes the mutex moves on by itself. -/
theorem State.turn_of_lock {s next : State producerCount consumerCount}
    {consumerId : Fin consumerCount} {now : Int} {phase : ConsumerPhase producerCount}
    (hflows : ConsumerPhase.Flows s.stop (s.consumers consumerId) phase)
    (hstep : s.lock consumerId phase = some next) : s.Turn (.consumerStep consumerId now) next := by
  simp only [State.lock, Option.ite_none_right_eq_some, Option.some.injEq] at hstep
  obtain ⟨_, rfl⟩ := hstep
  exact .consume consumerId phase (by simp) hflows rfl rfl rfl rfl

theorem State.turn_of_consumerStep {s next : State producerCount consumerCount}
    {consumerId : Fin consumerCount} {now : Int}
    (hstep : s.consumerStep consumerId now = some next) :
    s.Turn (.consumerStep consumerId now) next := by
  have haction (succeeds : Bool) : (.consumerStep consumerId now :
      Action producerCount consumerCount) ≠ .mainStep succeeds := by simp
  cases hphase : s.consumers consumerId with
  | locking =>
    simp only [State.consumerStep, hphase] at hstep
    exact State.turn_of_lock (hphase ▸ .lock) hstep
  | testingStop =>
    simp only [State.consumerStep, hphase] at hstep
    split_ifs at hstep with hstop
    · cases hstep
      exact .consume consumerId _ haction (hphase ▸ .exit hstop) rfl rfl rfl rfl
    · cases hstep
      have hrunning : s.stop = false := by simpa using hstop
      exact .consume consumerId _ haction (hphase ▸ .goOn hrunning) rfl rfl rfl rfl
  | testingPredicate =>
    simp only [State.consumerStep, hphase] at hstep
    split_ifs at hstep with hpasses
    · cases hstep
      exact .consume consumerId _ haction (hphase ▸ .pass) rfl rfl rfl rfl
    · cases hstep
      have hrunning : s.stop = false := by
        simp only [Bool.or_eq_true, not_or, Bool.not_eq_true] at hpasses
        exact hpasses.1
      exact .consume consumerId _ haction (hphase ▸ .block hrunning) rfl rfl rfl rfl
  | woken timedOut =>
    simp only [State.consumerStep, hphase] at hstep
    cases timedOut with
    | false => exact State.turn_of_lock (hphase ▸ .testAgain) hstep
    | true => exact State.turn_of_lock (hphase ▸ .giveUp) hstep
  | testingEmpty =>
    simp only [State.consumerStep, hphase] at hstep
    split_ifs at hstep
    · cases hstep
      exact .consume consumerId _ haction (hphase ▸ .findNothing) rfl rfl rfl rfl
    · cases hstep
      exact .consume consumerId _ haction (hphase ▸ .findItem) rfl rfl rfl rfl
  | foundEmpty =>
    simp only [State.consumerStep, hphase] at hstep
    split_ifs at hstep with hstop
    · cases hstep
      exact .consume consumerId _ haction (hphase ▸ .leave hstop) rfl rfl rfl rfl
    · cases hstep
      have hrunning : s.stop = false := by simpa using hstop
      exact .consume consumerId _ haction (hphase ▸ .repeat hrunning) rfl rfl rfl rfl
  | popping =>
    simp only [State.consumerStep, hphase] at hstep
    split at hstep
    · cases hstep
    · cases hstep
      exact .consume consumerId _ haction (hphase ▸ .pop _ _) rfl rfl rfl rfl
  | logging poppedItem workItemsSize =>
    simp only [State.consumerStep, hphase, Option.some.injEq] at hstep
    subst hstep
    exact .consume consumerId _ haction (hphase ▸ .log poppedItem workItemsSize) rfl rfl rfl rfl
  | notCreated | blocked | exited => simp [State.consumerStep, hphase] at hstep

theorem State.turn_of_wake {s next : State producerCount consumerCount}
    {action : Action producerCount consumerCount} {consumerId : Fin consumerCount}
    {timedOut : Bool} (haction : ∀ succeeds, action ≠ .mainStep succeeds)
    (hstep : s.wake consumerId timedOut = some next) : s.Turn action next := by
  simp only [State.wake, Option.ite_none_right_eq_some, Option.some.injEq] at hstep
  obtain ⟨hblocked, rfl⟩ := hstep
  exact .consume consumerId _ haction (hblocked ▸ .wake timedOut) rfl rfl rfl rfl

theorem State.turn_of_mainStep {s next : State producerCount consumerCount} {succeeds : Bool}
    (hstep : s.mainStep succeeds = some next) : s.Turn (.mainStep succeeds) next := by
  cases hmain : s.main with
  | creatingProducer producerId =>
    simp only [State.mainStep, hmain] at hstep
    split_ifs at hstep with hless hsucceeds
    · cases hstep
      subst hsucceeds
      exact .createProducer producerId hless hmain
    · cases hstep
      obtain rfl : succeeds = false := by simpa using hsucceeds
      exact .fail (.inl ⟨producerId, hmain⟩)
    · cases hstep
      exact .producersCreated succeeds producerId hmain (not_lt.mp hless)
  | creatingConsumer consumerId =>
    simp only [State.mainStep, hmain] at hstep
    split_ifs at hstep with hless hsucceeds
    · cases hstep
      subst hsucceeds
      exact .createConsumer consumerId hless hmain
    · cases hstep
      obtain rfl : succeeds = false := by simpa using hsucceeds
      exact .fail (.inr ⟨consumerId, hmain⟩)
    · cases hstep
      exact .consumersCreated succeeds consumerId hmain (not_lt.mp hless)
  | joining index =>
    simp only [State.mainStep, hmain] at hstep
    split_ifs at hstep with hproducer _ hconsumer _
    · cases hstep
      exact .join succeeds index hmain (by omega)
    · cases hstep
      exact .join succeeds index hmain (by omega)
    · cases hstep
      exact .return succeeds index hmain (by omega)
  | returned | threw => simp [State.mainStep, hmain] at hstep

/-- Every step is a turn. -/
theorem State.turn_of_step {s next : State producerCount consumerCount}
    {action : Action producerCount consumerCount} (hstep : s.step action = some next) :
    s.Turn action next := by
  cases action with
  | setStop =>
    cases hstep
    exact .setStop
  | mainStep succeeds => exact State.turn_of_mainStep hstep
  | producerStep producerId now => exact State.turn_of_producerStep hstep
  | notifyOne producerId target =>
    simp only [State.step, State.notifyOne, Option.ite_none_right_eq_some,
      Option.some.injEq] at hstep
    obtain ⟨⟨hphase, hpicks⟩, rfl⟩ := hstep
    exact .notify producerId target hphase hpicks
  | consumerStep consumerId now => exact State.turn_of_consumerStep hstep
  | timeout consumerId | spuriousWake consumerId => exact State.turn_of_wake (by simp) hstep

end spdlogger.producer_consumer_queue
