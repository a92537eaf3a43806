import Spdlogger.ProducerConsumerQueue.Step

namespace spdlogger.producer_consumer_queue

variable {producerCount consumerCount : Nat}

/-- The consumers that `run` has still to create. -/
def MainPhase.Creates (consumerId : Nat) : MainPhase → Prop
  | .creatingProducer _ => True
  | .creatingConsumer next => next ≤ consumerId
  | .joining _ | .returned | .threw => False

/-- The consumers that `run` has joined. -/
def MainPhase.Joined (producerCount consumerId : Nat) : MainPhase → Prop
  | .joining index => producerCount + consumerId < index
  | .returned => True
  | .creatingProducer _ | .creatingConsumer _ | .threw => False

/-- The phases outside the mutex that a consumer moves on from. -/
def ConsumerPhase.outside : ConsumerPhase producerCount → Bool
  | .locking | .blocked | .woken _ | .logging .. => true
  | _ => false

/-- A consumer outside the queue does not hold the mutex. -/
theorem ConsumerPhase.holds_of_outside {phase : ConsumerPhase producerCount}
    (h : phase.outside = true) : phase.holds = false := by
  cases phase with
  | locking | blocked | woken | logging => rfl
  | _ => cases h

theorem ConsumerPhase.ne_of_outside {phase other : ConsumerPhase producerCount}
    (h : phase.outside = true) (hother : other.outside = false) : phase ≠ other := by
  rintro rfl
  rw [h] at hother
  cases hother

theorem ConsumerPhase.ne_of_holds {phase other : ConsumerPhase producerCount}
    (h : phase.holds = true) (hother : other.holds = false) : phase ≠ other := by
  rintro rfl
  rw [h] at hother
  cases hother

/-- Both ways out of the loop of a consumer start inside the mutex. -/
theorem ConsumerPhase.holds_of_exits {phase : ConsumerPhase producerCount}
    (h : phase = .testingStop ∨ phase = .foundEmpty) : phase.holds = true := by
  rcases h with rfl | rfl <;> rfl

/-- What a step does to the mutex, the queue and the consumers. The last two
conditions of `within` are the outcome of the emptiness test. -/
inductive State.Move (s : State producerCount consumerCount) :
    Action producerCount consumerCount → State producerCount consumerCount → Prop where
  | outside {action : Action producerCount consumerCount} {stop : Bool}
      {producers : Fin producerCount → ProducerPhase}
      {consumers : Fin consumerCount → ConsumerPhase producerCount}
      {logged : List (LogLine producerCount consumerCount)}
      (hconsumers : ∀ consumerId, consumers consumerId = s.consumers consumerId ∨
        (s.consumers consumerId).outside = true ∧ (consumers consumerId).outside = true) :
      Move s action { s with stop, producers, consumers, logged }
  | run {succeeds : Bool} {producers : Fin producerCount → ProducerPhase} {main : MainPhase}
      (hcreates : ∀ consumerId, main.Creates consumerId → s.main.Creates consumerId)
      (hjoined : ∀ consumerId : Fin consumerCount, main.Joined producerCount consumerId →
        s.main.Joined producerCount consumerId ∨ s.consumers consumerId = .exited) :
      Move s (.mainStep succeeds) { s with producers, main }
  | create {consumerId : Nat} (hlt : consumerId < consumerCount)
      (hmain : s.main = .creatingConsumer consumerId) :
      Move s (.mainStep true) { s.setConsumer ⟨consumerId, hlt⟩ .locking with
        main := .creatingConsumer (consumerId + 1) }
  | push {producerId : Fin producerCount} {now : Int} (hphase : s.producers producerId = .pushing)
      (hfree : s.workItemsMutex = none) (hroom : s.workItems.length < maxQueueSize) :
      Move s (.producerStep producerId now) (s.push producerId now)
  | lock {consumerId : Fin consumerCount} {now : Int} {phase : ConsumerPhase producerCount}
      (hbefore : (s.consumers consumerId).outside = true) (hfree : s.workItemsMutex = none)
      (hafter : phase = .testingStop ∨ phase = .testingPredicate ∨ phase = .testingEmpty) :
      Move s (.consumerStep consumerId now)
        { s.setConsumer consumerId phase with workItemsMutex := some consumerId }
  | within {consumerId : Fin consumerCount} {now : Int} {phase : ConsumerPhase producerCount}
      (hbefore : (s.consumers consumerId).holds = true) (hafter : phase.holds = true)
      (hempty : phase = .foundEmpty → s.workItems = [])
      (hpopping : phase = .popping → s.workItems ≠ []) :
      Move s (.consumerStep consumerId now) (s.setConsumer consumerId phase)
  | block {consumerId : Fin consumerCount} {now : Int}
      (hbefore : s.consumers consumerId = .testingPredicate) :
      Move s (.consumerStep consumerId now) (s.unlock consumerId .blocked)
  | exit {consumerId : Fin consumerCount} {now : Int} (hstop : s.stop = true)
      (hbefore : s.consumers consumerId = .testingStop ∨ s.consumers consumerId = .foundEmpty) :
      Move s (.consumerStep consumerId now) (s.unlock consumerId .exited)
  | pop {consumerId : Fin consumerCount} {now : Int} {poppedItem : WorkItem producerCount}
      {rest : List (WorkItem producerCount)} (hbefore : s.consumers consumerId = .popping)
      (hitems : s.workItems = poppedItem :: rest) :
      Move s (.consumerStep consumerId now)
        { s.unlock consumerId (.logging poppedItem rest.length) with
          workItems := rest
          popped := s.popped ++ [poppedItem] }

/-- Moving one consumer between phases outside the queue changes nobody's hold on the mutex. -/
theorem outside_update {consumers : Fin consumerCount → ConsumerPhase producerCount}
    {consumerId : Fin consumerCount} {phase : ConsumerPhase producerCount}
    (hbefore : (consumers consumerId).outside = true) (hafter : phase.outside = true)
    (other : Fin consumerCount) :
    Function.update consumers consumerId phase other = consumers other ∨
      (consumers other).outside = true ∧
        (Function.update consumers consumerId phase other).outside = true := by
  by_cases hother : other = consumerId
  · rw [hother, Function.update_self]
    exact .inr ⟨hbefore, hafter⟩
  · exact .inl (Function.update_of_ne hother ..)

/-- A step that moves no consumer. -/
theorem State.Move.elsewhere {s : State producerCount consumerCount}
    {action : Action producerCount consumerCount} {stop : Bool}
    {producers : Fin producerCount → ProducerPhase} :
    s.Move action { s with stop, producers } :=
  .outside fun _ => .inl rfl

theorem State.Move.producerStep {s next : State producerCount consumerCount}
    {producerId : Fin producerCount} {now : Int}
    (hstep : s.producerStep producerId now = some next) :
    s.Move (.producerStep producerId now) next := by
  cases hphase : s.producers producerId with
  | testingStop =>
    simp only [State.producerStep, hphase, Option.some.injEq] at hstep
    subst hstep
    exact .elsewhere
  | pushing =>
    simp only [State.producerStep, hphase] at hstep
    split_ifs at hstep with hfree hroom
    · cases hstep
      exact .push hphase hfree hroom
    · cases hstep
      exact .elsewhere
  | notCreated | notifying | exited => simp [State.producerStep, hphase] at hstep

theorem State.Move.notifyOne {s next : State producerCount consumerCount}
    {producerId : Fin producerCount} {target : Option (Fin consumerCount)}
    (hstep : s.notifyOne producerId target = some next) :
    s.Move (.notifyOne producerId target) next := by
  simp only [State.notifyOne, Option.ite_none_right_eq_some, Option.some.injEq] at hstep
  obtain ⟨⟨_, hpicks⟩, rfl⟩ := hstep
  cases target with
  | none => exact .elsewhere
  | some consumerId =>
    have hblocked : s.consumers consumerId = .blocked := by
      cases hphase : s.consumers consumerId with
      | blocked => rfl
      | _ => simp [condition_variable.Waiters.Picks, workItemsCv, hphase] at hpicks
    refine .outside (outside_update ?_ ?_)
    · rw [hblocked]
      rfl
    · simp only [workItemsCv, hblocked]
      rfl

theorem State.Move.wake {s next : State producerCount consumerCount}
    {action : Action producerCount consumerCount} {consumerId : Fin consumerCount}
    {timedOut : Bool} (hstep : s.wake consumerId timedOut = some next) : s.Move action next := by
  simp only [State.wake, Option.ite_none_right_eq_some, Option.some.injEq] at hstep
  obtain ⟨hblocked, rfl⟩ := hstep
  refine .outside (outside_update ?_ rfl)
  rw [hblocked]
  rfl

theorem State.Move.lockStep {s next : State producerCount consumerCount}
    {consumerId : Fin consumerCount} {now : Int} {phase : ConsumerPhase producerCount}
    (hbefore : (s.consumers consumerId).outside = true)
    (hafter : phase = .testingStop ∨ phase = .testingPredicate ∨ phase = .testingEmpty)
    (hstep : s.lock consumerId phase = some next) :
    s.Move (.consumerStep consumerId now) next := by
  simp only [State.lock, Option.ite_none_right_eq_some, Option.some.injEq] at hstep
  obtain ⟨hfree, rfl⟩ := hstep
  exact .lock hbefore hfree hafter

theorem State.Move.consumerStep {s next : State producerCount consumerCount}
    {consumerId : Fin consumerCount} {now : Int}
    (hstep : s.consumerStep consumerId now = some next) :
    s.Move (.consumerStep consumerId now) next := by
  cases hphase : s.consumers consumerId with
  | locking =>
    simp only [State.consumerStep, hphase] at hstep
    exact .lockStep (hphase ▸ rfl) (.inl rfl) hstep
  | testingStop =>
    simp only [State.consumerStep, hphase] at hstep
    split_ifs at hstep with hstop
    · cases hstep
      exact .exit hstop (.inl hphase)
    · cases hstep
      exact .within (hphase ▸ rfl) rfl nofun nofun
  | testingPredicate =>
    simp only [State.consumerStep, hphase] at hstep
    split_ifs at hstep
    · cases hstep
      exact .within (hphase ▸ rfl) rfl nofun nofun
    · cases hstep
      exact .block hphase
  | woken timedOut =>
    simp only [State.consumerStep, hphase] at hstep
    refine .lockStep (hphase ▸ rfl) ?_ hstep
    cases timedOut with
    | false => exact .inr (.inl rfl)
    | true => exact .inr (.inr rfl)
  | testingEmpty =>
    simp only [State.consumerStep, hphase] at hstep
    split_ifs at hstep with hempty
    · cases hstep
      exact .within (hphase ▸ rfl) rfl (fun _ => List.isEmpty_iff.mp hempty) nofun
    · cases hstep
      exact .within (hphase ▸ rfl) rfl nofun fun _ hnil => hempty (List.isEmpty_iff.mpr hnil)
  | foundEmpty =>
    simp only [State.consumerStep, hphase] at hstep
    split_ifs at hstep with hstop
    · cases hstep
      exact .exit hstop (.inr hphase)
    · cases hstep
      exact .within (hphase ▸ rfl) rfl nofun nofun
  | popping =>
    simp only [State.consumerStep, hphase] at hstep
    split at hstep
    · cases hstep
    · next hitems =>
      cases hstep
      exact .pop hphase hitems
  | logging poppedItem workItemsSize =>
    simp only [State.consumerStep, hphase, Option.some.injEq] at hstep
    subst hstep
    exact .outside (outside_update (hphase ▸ rfl) rfl)
  | notCreated | blocked | exited => simp [State.consumerStep, hphase] at hstep

theorem State.Move.mainStep {s next : State producerCount consumerCount} {succeeds : Bool}
    (hstep : s.mainStep succeeds = some next) : s.Move (.mainStep succeeds) next := by
  cases hmain : s.main with
  | creatingProducer producerId =>
    have hcreates (main : MainPhase) (consumerId : Nat) :
        main.Creates consumerId → s.main.Creates consumerId := fun _ => hmain ▸ trivial
    simp only [State.mainStep, hmain] at hstep
    split_ifs at hstep <;> cases hstep <;> exact .run (hcreates _) fun _ => False.elim
  | creatingConsumer consumerId =>
    simp only [State.mainStep, hmain] at hstep
    split_ifs at hstep with hlt hsucceeds
    · cases hstep
      subst hsucceeds
      exact .create hlt hmain
    · cases hstep
      exact .run (fun _ => False.elim) fun _ => False.elim
    · cases hstep
      exact .run (fun _ => False.elim) fun _ hjoined => absurd hjoined (Nat.not_lt_zero _)
  | joining index =>
    simp only [State.mainStep, hmain] at hstep
    split_ifs at hstep with hproducer hexited hconsumer hexited
    · cases hstep
      refine .run (fun _ => False.elim) fun consumerId hjoined => .inl ?_
      have hlater : producerCount + consumerId < index + 1 := hjoined
      rw [hmain]
      show producerCount + consumerId < index
      omega
    · cases hstep
      refine .run (fun _ => False.elim) fun consumerId hjoined => ?_
      have hlater : producerCount + consumerId < index + 1 := hjoined
      by_cases heq : consumerId = ⟨index - producerCount, hconsumer⟩
      · exact .inr (heq ▸ hexited)
      · have hne : consumerId.val ≠ index - producerCount := fun hval => heq (Fin.ext hval)
        rw [hmain]
        refine .inl ?_
        show producerCount + consumerId < index
        omega
    · cases hstep
      refine .run (fun _ => False.elim) fun consumerId _ => .inl ?_
      have hlt := consumerId.isLt
      rw [hmain]
      show producerCount + consumerId < index
      omega
  | returned | threw => simp [State.mainStep, hmain] at hstep

/-- Every step is one of the moves. -/
theorem State.move_of_step {s next : State producerCount consumerCount}
    {action : Action producerCount consumerCount} (hstep : s.step action = some next) :
    s.Move action next := by
  cases action with
  | setStop =>
    cases hstep
    exact .elsewhere
  | mainStep succeeds => exact .mainStep hstep
  | producerStep producerId now => exact .producerStep hstep
  | notifyOne producerId target => exact .notifyOne hstep
  | consumerStep consumerId now => exact .consumerStep hstep
  | timeout consumerId => exact .wake hstep
  | spuriousWake consumerId => exact .wake hstep

end spdlogger.producer_consumer_queue
