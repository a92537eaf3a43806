import Spdlogger.Library.Mutex
import Spdlogger.ProducerConsumerQueue.Moves

namespace spdlogger.producer_consumer_queue

variable {producerCount consumerCount : Nat}

/-- What a consumer has found out about the queue, and acts on. -/
def ConsumerPhase.Tested (workItems : List (WorkItem producerCount)) :
    ConsumerPhase producerCount → Prop
  | .foundEmpty => workItems = []
  | .popping => workItems ≠ []
  | _ => True

/-- Of a consumer outside the mutex nothing is known about the queue. -/
theorem ConsumerPhase.tested_of_not_holds {phase : ConsumerPhase producerCount}
    (h : phase.holds = false) (workItems : List (WorkItem producerCount)) :
    phase.Tested workItems := by
  cases phase with
  | foundEmpty | popping => cases h
  | _ => trivial

/-- Moving one consumer keeps what the others have tested. -/
theorem tested_update {workItems : List (WorkItem producerCount)}
    {consumers : Fin consumerCount → ConsumerPhase producerCount}
    (h : ∀ consumerId, (consumers consumerId).Tested workItems) {consumerId : Fin consumerCount}
    {phase : ConsumerPhase producerCount} (hphase : phase.Tested workItems)
    (other : Fin consumerCount) :
    (Function.update consumers consumerId phase other).Tested workItems := by
  by_cases hother : other = consumerId
  · rw [hother, Function.update_self]
    exact hphase
  · rw [Function.update_of_ne hother]
    exact h other

/-- At most one consumer is inside the mutex, it is the owner, and the queue is
still as its emptiness test left it. -/
structure State.Exclusive (s : State producerCount consumerCount) : Prop where
  uncreated : ∀ consumerId : Fin consumerCount, s.main.Creates consumerId →
    s.consumers consumerId = .notCreated
  heldBy : mutex.HeldBy ConsumerPhase.holds s.consumers s.workItemsMutex
  tested : ∀ consumerId, (s.consumers consumerId).Tested s.workItems

theorem State.Exclusive.init (stop : Bool) :
    State.Exclusive ({ stop } : State producerCount consumerCount) := by
  refine ⟨fun _ _ => rfl, ?_, fun _ => trivial⟩
  intro consumerId
  exact ⟨nofun, nofun⟩

/-- A consumer that is still to be created is not there after a step either. -/
theorem State.Exclusive.uncreated_step {s next : State producerCount consumerCount}
    (h : s.Exclusive) {action : Action producerCount consumerCount} (hmove : s.Move action next)
    (consumerId : Fin consumerCount) (hcreates : next.main.Creates consumerId) :
    next.consumers consumerId = .notCreated := by
  cases hmove with
  | outside hconsumers =>
    have hbefore := h.uncreated consumerId hcreates
    rcases hconsumers consumerId with hsame | ⟨houtside, _⟩
    · exact hsame.trans hbefore
    · exact absurd hbefore (ConsumerPhase.ne_of_outside houtside rfl)
  | run hearlier => exact h.uncreated consumerId (hearlier consumerId hcreates)
  | @create created hlt hmain =>
    have hlater : created < consumerId := hcreates
    have hne : consumerId ≠ ⟨created, hlt⟩ := by
      rintro rfl
      exact Nat.lt_irrefl _ hlater
    have hearlier : s.main.Creates consumerId := hmain ▸ hlater.le
    simp [Function.update_of_ne hne, h.uncreated consumerId hearlier]
  | push => exact h.uncreated consumerId hcreates
  | lock hbefore =>
    apply threads.update_of_phase_ne (h.uncreated consumerId hcreates)
    exact ConsumerPhase.ne_of_outside hbefore rfl
  | within hbefore =>
    apply threads.update_of_phase_ne (h.uncreated consumerId hcreates)
    exact ConsumerPhase.ne_of_holds hbefore rfl
  | block hbefore | pop hbefore =>
    apply threads.update_of_phase_ne (h.uncreated consumerId hcreates)
    simp [hbefore]
  | exit _ hbefore =>
    apply threads.update_of_phase_ne (h.uncreated consumerId hcreates)
    exact ConsumerPhase.ne_of_holds (ConsumerPhase.holds_of_exits hbefore) rfl

/-- After each step the owner of the mutex is the consumer inside. -/
theorem State.Exclusive.heldBy_step {s next : State producerCount consumerCount}
    (h : s.Exclusive) {action : Action producerCount consumerCount} (hmove : s.Move action next) :
    mutex.HeldBy ConsumerPhase.holds next.consumers next.workItemsMutex := by
  cases hmove with
  | outside hconsumers =>
    apply h.heldBy.congr
    intro consumerId
    rcases hconsumers consumerId with hsame | ⟨hbefore, hafter⟩
    · exact congrArg ConsumerPhase.holds hsame
    · exact (ConsumerPhase.holds_of_outside hafter).trans
        (ConsumerPhase.holds_of_outside hbefore).symm
  | @create created hlt hmain =>
    have hnotCreated := h.uncreated ⟨created, hlt⟩ (hmain ▸ Nat.le_refl created)
    apply h.heldBy.congr
    intro consumerId
    by_cases heq : consumerId = ⟨created, hlt⟩
    · simp [heq, hnotCreated, ConsumerPhase.holds]
    · simp [Function.update_of_ne heq]
  | run | push => exact h.heldBy
  | lock _ hfree hafter =>
    have hheld := h.heldBy
    rw [hfree] at hheld
    refine hheld.lock ?_
    rcases hafter with rfl | rfl | rfl <;> rfl
  | within hbefore hafter => exact h.heldBy.within hbefore hafter
  | block hbefore => exact h.heldBy.unlock (hbefore ▸ rfl) rfl
  | exit _ hbefore => exact h.heldBy.unlock (ConsumerPhase.holds_of_exits hbefore) rfl
  | pop hbefore => exact h.heldBy.unlock (hbefore ▸ rfl) rfl

/-- Each step keeps the mutual exclusion. -/
theorem State.Exclusive.step {s next : State producerCount consumerCount} (h : s.Exclusive)
    {action : Action producerCount consumerCount} (hstep : s.step action = some next) :
    next.Exclusive := by
  have hmove := State.move_of_step hstep
  have hheld := h.heldBy_step hmove
  refine ⟨h.uncreated_step hmove, hheld, ?_⟩
  -- Where nobody holds the mutex, no test is pending.
  have hreleased (hfree : next.workItemsMutex = none) (consumerId : Fin consumerCount) :
      (next.consumers consumerId).Tested next.workItems := by
    rw [hfree] at hheld
    exact ConsumerPhase.tested_of_not_holds (hheld.free consumerId) _
  cases hmove with
  | outside hconsumers =>
    intro consumerId
    rcases hconsumers consumerId with hsame | ⟨_, hafter⟩
    · simp only [hsame]
      exact h.tested consumerId
    · exact ConsumerPhase.tested_of_not_holds (ConsumerPhase.holds_of_outside hafter) _
  | run => exact h.tested
  | create => exact tested_update h.tested trivial
  | push _ hfree => exact hreleased hfree
  | lock _ _ hafter =>
    refine tested_update h.tested ?_
    rcases hafter with rfl | rfl | rfl <;> trivial
  | @within _ _ phase _ _ hempty hpopping =>
    refine tested_update h.tested ?_
    cases phase with
    | foundEmpty => exact hempty rfl
    | popping => exact hpopping rfl
    | _ => trivial
  | block | exit | pop => exact hreleased rfl

/-- Mutual exclusion holds in every reachable state. -/
theorem State.exclusive_of_reachable {s : State producerCount consumerCount}
    (hreach : (queueMachine producerCount consumerCount).Reachable s) : s.Exclusive := by
  refine transition.Machine.Reachable.invariant ?_ ?_ hreach
  · rintro s ⟨stop, rfl⟩
    exact .init stop
  · exact fun s action next hexclusive hstep => hexclusive.step hstep

end spdlogger.producer_consumer_queue
