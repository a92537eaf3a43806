import Spdlogger.Library.Progress
import Spdlogger.ProducerConsumerQueue.Exclusion
import Spdlogger.ProducerConsumerQueue.Turns

namespace spdlogger.producer_consumer_queue

variable {producerCount consumerCount : Nat}

/-- How many steps a producer has at most before it once `stop` is set. -/
def ProducerPhase.remaining : ProducerPhase → Nat
  | .notCreated | .exited => 0
  | .testingStop => 1
  | .notifying => 2
  | .pushing => 3

/-- The same for a consumer, the end of its wait included. -/
def ConsumerPhase.remaining : ConsumerPhase producerCount → Nat
  | .notCreated | .exited => 0
  | .testingStop | .foundEmpty => 1
  | .locking => 2
  | .logging _ _ => 3
  | .popping => 4
  | .testingEmpty => 5
  | .testingPredicate => 6
  | .woken _ => 7
  | .blocked => 8

/-- The same for `run`, with the steps of the threads it has yet to create. -/
def MainPhase.remaining (producerCount consumerCount : Nat) : MainPhase → Nat
  | .creatingProducer producerId =>
    2 * (producerCount - producerId) + 4 * consumerCount + producerCount + 3
  | .creatingConsumer consumerId =>
    3 * (consumerCount - consumerId) + producerCount + consumerCount + 2
  | .joining index => producerCount + consumerCount - index + 1
  | .returned | .threw => 0

/-- The steps that all threads have left once `stop` is set. -/
def State.remaining (s : State producerCount consumerCount) : Nat :=
  (∑ producerId, (s.producers producerId).remaining) +
    (∑ consumerId, (s.consumers consumerId).remaining) +
    s.main.remaining producerCount consumerCount

/-- Everything but the store of `stop` is a step of the test itself. -/
def Action.isOwn : Action producerCount consumerCount → Bool
  | .setStop => false
  | _ => true

/-- After the stop flag each step of a producer lowers what remains of it. -/
theorem ProducerPhase.Flows.remaining_lt {phase next : ProducerPhase}
    (hflows : ProducerPhase.Flows true phase next) : next.remaining < phase.remaining := by
  cases hflows with
  | exit | push | full => decide
  | goOn hstop => cases hstop

/-- After the stop flag each step of a consumer lowers what remains of it. -/
theorem ConsumerPhase.Flows.remaining_lt {phase next : ConsumerPhase producerCount}
    (hflows : ConsumerPhase.Flows true phase next) : next.remaining < phase.remaining := by
  cases hflows with
  | goOn hstop | block hstop | «repeat» hstop => cases hstop
  | lock | exit | pass | wake | testAgain | giveUp | findNothing | findItem | leave | pop | log =>
    simp [ConsumerPhase.remaining]

/-- A wake-up leaves no thread more to do. -/
theorem ConsumerPhase.remaining_wake_le (phase : ConsumerPhase producerCount) :
    ((workItemsCv producerCount).wake phase).remaining ≤ phase.remaining := by
  cases phase with
  | blocked => simp [workItemsCv, ConsumerPhase.remaining]
  | _ => exact le_rfl

/-- A notification raises nobody's remaining steps. -/
theorem remaining_notifyOne_le (consumers : Fin consumerCount → ConsumerPhase producerCount)
    (target : Option (Fin consumerCount)) :
    ∑ consumerId, ((workItemsCv producerCount).notifyOne consumers target consumerId).remaining ≤
      ∑ consumerId, (consumers consumerId).remaining := by
  refine Finset.sum_le_sum fun consumerId _ => ?_
  cases target with
  | none => exact le_rfl
  | some woken =>
    by_cases hwoken : consumerId = woken
    · subst hwoken
      rw [condition_variable.Waiters.notifyOne_some, Function.update_self]
      exact ConsumerPhase.remaining_wake_le _
    · rw [condition_variable.Waiters.notifyOne_some, Function.update_of_ne hwoken]

/-- Once `stop` is set, every step of the test is one less to go. -/
theorem State.remaining_of_turn {s next : State producerCount consumerCount}
    {action : Action producerCount consumerCount} (hstop : s.stop = true)
    (hturn : s.Turn action next) :
    next.remaining < s.remaining ∨ action = .setStop ∧ next.remaining = s.remaining := by
  cases hturn with
  | setStop => exact .inr ⟨rfl, rfl⟩
  | produce producerId now phase hflows hproducers hconsumers hmain =>
    left
    have hsum := threads.sum_update_add ProducerPhase.remaining s.producers producerId phase
    have hless := (hstop ▸ hflows).remaining_lt
    unfold State.remaining
    rw [hproducers, hconsumers, hmain]
    omega
  | notify producerId target hphase hpicks =>
    left
    have hsum := threads.sum_update_add ProducerPhase.remaining s.producers producerId .testingStop
    have hwakes := remaining_notifyOne_le s.consumers target
    rw [hphase] at hsum
    simp only [State.remaining, State.setProducer]
    simp only [ProducerPhase.remaining] at hsum ⊢
    omega
  | consume consumerId phase haction hflows hproducers hconsumers hmain =>
    left
    have hsum := threads.sum_update_add ConsumerPhase.remaining s.consumers consumerId phase
    have hless := (hstop ▸ hflows).remaining_lt
    unfold State.remaining
    rw [hproducers, hconsumers, hmain]
    omega
  | createProducer producerId hless hmain =>
    left
    have hsum := threads.sum_update_add ProducerPhase.remaining s.producers ⟨producerId, hless⟩
      .testingStop
    simp only [State.remaining, State.setProducer, hmain, MainPhase.remaining]
    simp only [ProducerPhase.remaining] at hsum ⊢
    omega
  | createConsumer consumerId hless hmain =>
    left
    have hsum := threads.sum_update_add ConsumerPhase.remaining s.consumers ⟨consumerId, hless⟩
      .locking
    simp only [State.remaining, State.setConsumer, hmain, MainPhase.remaining]
    simp only [ConsumerPhase.remaining] at hsum ⊢
    omega
  | fail hcreating =>
    left
    obtain ⟨producerId, hmain⟩ | ⟨consumerId, hmain⟩ := hcreating <;>
      simp only [State.remaining, hmain, MainPhase.remaining] <;> omega
  | producersCreated succeeds _ hmain | consumersCreated succeeds _ hmain
  | join succeeds _ hmain | «return» succeeds _ hmain =>
    left
    simp only [State.remaining, hmain, MainPhase.remaining]
    omega

/-- The stop flag stays set. -/
theorem State.stop_of_turn {s next : State producerCount consumerCount}
    {action : Action producerCount consumerCount} (hstop : s.stop = true)
    (hturn : s.Turn action next) : next.stop = true := by
  cases hturn with
  | setStop => rfl
  | produce _ _ _ _ _ _ _ hsame | consume _ _ _ _ _ _ _ hsame => exact hsame.trans hstop
  | notify | createProducer | createConsumer | fail | producersCreated | consumersCreated | join
  | «return» => exact hstop

/-- No phase lasts more steps than the longest one. -/
theorem State.remaining_le (s : State producerCount consumerCount) :
    s.remaining ≤ 6 * producerCount + 15 * consumerCount + 3 := by
  have hproducers : ∑ producerId, (s.producers producerId).remaining ≤ producerCount * 3 := by
    refine (Finset.sum_le_card_nsmul _ _ 3 fun producerId _ => ?_).trans (by simp)
    cases s.producers producerId <;> decide
  have hconsumers : ∑ consumerId, (s.consumers consumerId).remaining ≤ consumerCount * 8 := by
    refine (Finset.sum_le_card_nsmul _ _ 8 fun consumerId _ => ?_).trans (by simp)
    cases s.consumers consumerId <;> simp [ConsumerPhase.remaining]
  have hmain : s.main.remaining producerCount consumerCount ≤
      3 * producerCount + 4 * consumerCount + 3 := by
    cases s.main <;> simp only [MainPhase.remaining] <;> omega
  unfold State.remaining
  omega

/-- The threads that `run` is past creating. -/
def MainPhase.createdProducer (producerId : Nat) : MainPhase → Prop
  | .creatingProducer index => producerId < index
  | .creatingConsumer _ | .joining _ | .returned => True
  | .threw => False

/-- `run` is past the creation of this consumer. -/
def MainPhase.createdConsumer (consumerId : Nat) : MainPhase → Prop
  | .creatingConsumer index => consumerId < index
  | .joining _ | .returned => True
  | .creatingProducer _ | .threw => False

/-- What `run` is past the creation of has been created. -/
structure State.Created (s : State producerCount consumerCount) : Prop where
  producers : ∀ producerId : Fin producerCount, s.main.createdProducer producerId →
    s.producers producerId ≠ .notCreated
  consumers : ∀ consumerId : Fin consumerCount, s.main.createdConsumer consumerId →
    s.consumers consumerId ≠ .notCreated

/-- A producer that steps is created. -/
theorem ProducerPhase.Flows.ne_notCreated {stop : Bool} {phase next : ProducerPhase}
    (hflows : ProducerPhase.Flows stop phase next) : next ≠ .notCreated := by
  cases hflows <;> simp

/-- A consumer that steps is created. -/
theorem ConsumerPhase.Flows.ne_notCreated {stop : Bool} {phase next : ConsumerPhase producerCount}
    (hflows : ConsumerPhase.Flows stop phase next) : next ≠ .notCreated := by
  cases hflows <;> simp

/-- No step undoes a creation. -/
theorem ne_notCreated_update {ι φ : Type*} [DecidableEq ι] {phases : ι → φ} {mover thread : ι}
    {phase absent : φ} (h : phases thread ≠ absent) (hphase : phase ≠ absent) :
    Function.update phases mover phase thread ≠ absent := by
  by_cases hmover : thread = mover
  · rw [hmover, Function.update_self]
    exact hphase
  · rw [Function.update_of_ne hmover]
    exact h

/-- A wake-up creates no thread and undoes no creation. -/
theorem notCreated_notifyOne (consumers : Fin consumerCount → ConsumerPhase producerCount)
    (target : Option (Fin consumerCount)) (consumerId : Fin consumerCount) :
    ((workItemsCv producerCount).notifyOne consumers target consumerId = .notCreated) =
      (consumers consumerId = .notCreated) := by
  refine (workItemsCv producerCount).apply_notifyOne (F := (· = .notCreated)) (fun phase => ?_)
    consumers target consumerId
  cases phase <;> simp [workItemsCv]

/-- No turn undoes the creations `run` has made. -/
theorem State.Created.turn {s next : State producerCount consumerCount} (h : s.Created)
    {action : Action producerCount consumerCount} (hturn : s.Turn action next) : next.Created := by
  cases hturn with
  | setStop => exact ⟨h.producers, h.consumers⟩
  | produce producerId now phase hflows hproducers hconsumers hmain =>
    refine ⟨fun other hcreated => ?_, fun other hcreated => ?_⟩
    · rw [hproducers]
      exact ne_notCreated_update (h.producers other (hmain ▸ hcreated)) hflows.ne_notCreated
    · rw [hconsumers]
      exact h.consumers other (hmain ▸ hcreated)
  | notify producerId target =>
    refine ⟨fun other hcreated => ?_, fun other hcreated => ?_⟩
    · exact ne_notCreated_update (h.producers other hcreated) (by simp)
    · exact fun hnext => h.consumers other hcreated ((notCreated_notifyOne ..).mp hnext)
  | consume consumerId phase _ hflows hproducers hconsumers hmain =>
    refine ⟨fun other hcreated => ?_, fun other hcreated => ?_⟩
    · rw [hproducers]
      exact h.producers other (hmain ▸ hcreated)
    · rw [hconsumers]
      exact ne_notCreated_update (h.consumers other (hmain ▸ hcreated)) hflows.ne_notCreated
  | createProducer producerId hless hmain =>
    refine ⟨fun other hcreated => ?_, fun _ => False.elim⟩
    by_cases hother : other = ⟨producerId, hless⟩
    · simp [State.setProducer, hother]
    · have hearlier : other.val < producerId + 1 := hcreated
      have hapart : other.val ≠ producerId := fun hsame => hother (Fin.ext hsame)
      have hbefore : s.main.createdProducer other := by
        rw [hmain]
        show other.val < producerId
        omega
      exact ne_notCreated_update (h.producers other hbefore) (by simp)
  | createConsumer consumerId hless hmain =>
    refine ⟨fun other _ => h.producers other (hmain ▸ trivial), fun other hcreated => ?_⟩
    by_cases hother : other = ⟨consumerId, hless⟩
    · simp [State.setConsumer, hother]
    · have hearlier : other.val < consumerId + 1 := hcreated
      have hapart : other.val ≠ consumerId := fun hsame => hother (Fin.ext hsame)
      have hbefore : s.main.createdConsumer other := by
        rw [hmain]
        show other.val < consumerId
        omega
      exact ne_notCreated_update (h.consumers other hbefore) (by simp)
  | fail => exact ⟨fun _ => False.elim, fun _ => False.elim⟩
  | producersCreated succeeds producerId hmain hall =>
    refine ⟨fun other _ => h.producers other ?_, fun _ hcreated => absurd hcreated (Nat.not_lt_zero _)⟩
    rw [hmain]
    exact other.isLt.trans_le hall
  | consumersCreated succeeds consumerId hmain hall =>
    refine ⟨fun other _ => h.producers other (hmain ▸ trivial), fun other _ => h.consumers other ?_⟩
    rw [hmain]
    exact other.isLt.trans_le hall
  | join succeeds index hmain | «return» succeeds index hmain =>
    exact ⟨fun other _ => h.producers other (hmain ▸ trivial),
      fun other _ => h.consumers other (hmain ▸ trivial)⟩

/-- The threads that `run` has created are there, in every reachable state. -/
theorem State.created_of_reachable {s : State producerCount consumerCount}
    (hreach : (queueMachine producerCount consumerCount).Reachable s) : s.Created := by
  refine transition.Machine.Reachable.invariant ?_ ?_ hreach
  · rintro s ⟨stop, rfl⟩
    exact ⟨fun _ hcreated => absurd hcreated (Nat.not_lt_zero _), fun _ => False.elim⟩
  · exact fun s action next hcreated hstep => hcreated.turn (State.turn_of_step hstep)

/-- Nothing of the test can go on. -/
def State.Stuck (s : State producerCount consumerCount) : Prop :=
  (queueMachine producerCount consumerCount).Quiescent Action.isOwn s

/-- The consumer inside the mutex always has a step to take. -/
theorem State.Stuck.mutex_free {s : State producerCount consumerCount} (h : s.Stuck)
    (hexclusive : s.Exclusive) : s.workItemsMutex = none := by
  by_contra hheld
  obtain ⟨consumerId, howner⟩ := Option.ne_none_iff_exists'.mp hheld
  have hholds := (hexclusive.heldBy consumerId).mpr howner
  have hstep : s.consumerStep consumerId 0 = none := h (.consumerStep consumerId 0) rfl
  cases hphase : s.consumers consumerId with
  | testingStop | testingPredicate | testingEmpty | foundEmpty =>
    simp only [State.consumerStep, hphase] at hstep
    split_ifs at hstep
  | popping =>
    have htested := hexclusive.tested consumerId
    rw [hphase] at htested
    obtain ⟨poppedItem, rest, hitems⟩ := List.exists_cons_of_ne_nil htested
    simp [State.consumerStep, hphase, hitems] at hstep
  | notCreated | locking | blocked | woken | logging | exited =>
    rw [hphase] at hholds
    cases hholds

/-- So a thread that cannot go on was never created or is through. -/
theorem State.Stuck.producer {s : State producerCount consumerCount} (h : s.Stuck)
    (hexclusive : s.Exclusive) (producerId : Fin producerCount) :
    s.producers producerId = .notCreated ∨ s.producers producerId = .exited := by
  have hstep : s.producerStep producerId 0 = none := h (.producerStep producerId 0) rfl
  cases hphase : s.producers producerId with
  | notCreated => exact .inl rfl
  | exited => exact .inr rfl
  | testingStop => simp [State.producerStep, hphase] at hstep
  | pushing =>
    simp only [State.producerStep, hphase, h.mutex_free hexclusive, if_true] at hstep
    split_ifs at hstep
  | notifying =>
    obtain ⟨target, htarget⟩ := (workItemsCv producerCount).exists_picks s.consumers
    have hnotify : s.notifyOne producerId target = none := h (.notifyOne producerId target) rfl
    rw [State.notifyOne, if_pos ⟨hphase, htarget⟩] at hnotify
    cases hnotify

/-- In a stuck state a consumer is not created or has exited. -/
theorem State.Stuck.consumer {s : State producerCount consumerCount} (h : s.Stuck)
    (hexclusive : s.Exclusive) (consumerId : Fin consumerCount) :
    s.consumers consumerId = .notCreated ∨ s.consumers consumerId = .exited := by
  have hfree := h.mutex_free hexclusive
  have houtside : (s.consumers consumerId).holds = false := by
    have hheld := hexclusive.heldBy
    rw [hfree] at hheld
    exact hheld.free consumerId
  have hstep : s.consumerStep consumerId 0 = none := h (.consumerStep consumerId 0) rfl
  cases hphase : s.consumers consumerId with
  | notCreated => exact .inl rfl
  | exited => exact .inr rfl
  | locking | woken => simp [State.consumerStep, State.lock, hphase, hfree] at hstep
  | logging => simp [State.consumerStep, hphase] at hstep
  | blocked =>
    -- The time-out of its wait is always to come.
    have htimeout : s.wake consumerId true = none := h (.timeout consumerId) rfl
    rw [State.wake, if_pos hphase] at htimeout
    cases htimeout
  | testingStop | testingPredicate | testingEmpty | foundEmpty | popping =>
    rw [hphase] at houtside
    cases houtside

/-- `run` has been left, normally or by an exception. -/
def MainPhase.left : MainPhase → Bool
  | .returned | .threw => true
  | _ => false

/-- `run` is over, and so is every thread it created. -/
structure State.Over (s : State producerCount consumerCount) : Prop where
  left : s.main.left
  producers : ∀ producerId, s.producers producerId = .notCreated ∨ s.producers producerId = .exited
  consumers : ∀ consumerId, s.consumers consumerId = .notCreated ∨ s.consumers consumerId = .exited

/-- A stuck state is one in which the whole run is over. -/
theorem State.Stuck.over {s : State producerCount consumerCount} (h : s.Stuck)
    (hexclusive : s.Exclusive) (hcreated : s.Created) : s.Over := by
  refine ⟨?_, h.producer hexclusive, h.consumer hexclusive⟩
  have hstep : s.mainStep true = none := h (.mainStep true) rfl
  cases hmain : s.main with
  | returned | threw => rfl
  | creatingProducer index | creatingConsumer index =>
    simp only [State.mainStep, hmain, if_true] at hstep
    split_ifs at hstep
  | joining index =>
    exfalso
    simp only [State.mainStep, hmain] at hstep
    split_ifs at hstep with hproducer hrunning hconsumer hrunning
    · have hexists := hcreated.producers ⟨index, hproducer⟩ (hmain ▸ trivial)
      exact hrunning ((h.producer hexclusive _).resolve_left hexists)
    · have hexists := hcreated.consumers ⟨index - producerCount, hconsumer⟩ (hmain ▸ trivial)
      exact hrunning ((h.consumer hexclusive _).resolve_left hexists)

/-- In every reachable state the test can go on or is over, with every thread through that was
created; and once `stop` is set, whatever the interleaving, what is left of it are boundedly
many steps. -/
theorem State.run_ends {s : State producerCount consumerCount}
    (hreach : (queueMachine producerCount consumerCount).Reachable s) :
    (s.Stuck → s.Over) ∧ (s.stop = true → ∀ schedule last,
      (queueMachine producerCount consumerCount).run s schedule = some last →
        schedule.countP Action.isOwn ≤ 6 * producerCount + 15 * consumerCount + 3) := by
  constructor
  · exact fun hstuck =>
      hstuck.over (State.exclusive_of_reachable hreach) (State.created_of_reachable hreach)
  · intro hstop schedule last hrun
    have hset := transition.Machine.Reachable.runsBy_of_trapped (I := fun s => s.stop = true)
      (fun s a next _ hstop hstep => State.stop_of_turn hstop (State.turn_of_step hstep))
      hreach hstop schedule
    have hbound := transition.Machine.Reachable.countP_le Action.isOwn State.remaining
      (fun s a next _ hstop hown hstep => ?_) (fun s a next _ hstop _ hstep => ?_) hreach hset hrun
    · exact (Nat.le_of_add_right_le hbound).trans s.remaining_le
    · obtain hless | ⟨rfl, _⟩ := State.remaining_of_turn hstop (State.turn_of_step hstep)
      · exact hless
      · cases hown
    · obtain hless | ⟨_, hsame⟩ := State.remaining_of_turn hstop (State.turn_of_step hstep)
      · exact hless.le
      · exact hsame.le

/-- A consumer is asleep when `stop` is set. -/
theorem run_ends_sleeping_consumer :
    ∃ s : State 1 1, s.consumers 0 = .blocked ∧ s.stop = true ∧ (s.Stuck → s.Over) ∧
      ∀ schedule last, (queueMachine 1 1).run s schedule = some last →
        schedule.countP Action.isOwn ≤ 24 := by
  obtain ⟨s, hreach, hcheck⟩ := transition.Machine.exists_reachable_of_run
    (M := queueMachine 1 1) (s := {}) ⟨false, rfl⟩
    [.mainStep true, .mainStep true, .mainStep true, .consumerStep 0 0, .consumerStep 0 0,
      .consumerStep 0 0, .setStop]
    (fun s => s.consumers 0 = .blocked ∧ s.stop = true) (by decide)
  obtain ⟨hblocked, hstop⟩ := of_decide_eq_true hcheck
  have hends := State.run_ends hreach
  exact ⟨s, hblocked, hstop, hends.1, hends.2 hstop⟩

end spdlogger.producer_consumer_queue
