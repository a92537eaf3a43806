import Spdlogger.ProducerConsumerQueue.Order

namespace spdlogger.producer_consumer_queue

variable {producerCount consumerCount : Nat}

/-- A consumer that leaves its loop never comes back. -/
theorem State.exited_step {s next : State producerCount consumerCount} (h : s.Exclusive)
    {action : Action producerCount consumerCount} (hmove : s.Move action next)
    {consumerId : Fin consumerCount} (hexited : s.consumers consumerId = .exited) :
    next.consumers consumerId = .exited := by
  cases hmove with
  | outside hconsumers =>
    rcases hconsumers consumerId with hsame | ⟨houtside, _⟩
    · exact hsame.trans hexited
    · exact absurd hexited (ConsumerPhase.ne_of_outside houtside rfl)
  | @create created hlt hmain =>
    have hnotCreated := h.uncreated ⟨created, hlt⟩ (hmain ▸ Nat.le_refl created)
    apply threads.update_of_phase_ne hexited
    simp [hnotCreated]
  | run | push => exact hexited
  | lock hbefore =>
    apply threads.update_of_phase_ne hexited
    exact ConsumerPhase.ne_of_outside hbefore rfl
  | within hbefore =>
    apply threads.update_of_phase_ne hexited
    exact ConsumerPhase.ne_of_holds hbefore rfl
  | block hbefore | pop hbefore =>
    apply threads.update_of_phase_ne hexited
    simp [hbefore]
  | exit _ hbefore =>
    apply threads.update_of_phase_ne hexited
    exact ConsumerPhase.ne_of_holds (ConsumerPhase.holds_of_exits hbefore) rfl

/-- A consumer exits by its own step, which leaves the queue alone. -/
theorem State.exited_of_step {s next : State producerCount consumerCount}
    {action : Action producerCount consumerCount} (hmove : s.Move action next)
    {consumerId : Fin consumerCount} (hexited : next.consumers consumerId = .exited) :
    s.consumers consumerId = .exited ∨
      ∃ now, action = .consumerStep consumerId now ∧ s.stop = true ∧
        (s.consumers consumerId = .testingStop ∨ s.consumers consumerId = .foundEmpty) ∧
        next.workItems = s.workItems := by
  cases hmove with
  | outside hconsumers =>
    rcases hconsumers consumerId with hsame | ⟨_, houtside⟩
    · exact .inl (hsame.symm.trans hexited)
    · exact absurd hexited (ConsumerPhase.ne_of_outside houtside rfl)
  | run | push => exact .inl hexited
  | create | block | pop => exact .inl (threads.phase_of_update hexited (by simp))
  | lock _ _ hafter =>
    refine .inl (threads.phase_of_update hexited ?_)
    rcases hafter with rfl | rfl | rfl <;> simp
  | within _ hafter =>
    exact .inl (threads.phase_of_update hexited (ConsumerPhase.ne_of_holds hafter rfl))
  | @exit mover now hstop hbefore =>
    by_cases heq : consumerId = mover
    · subst heq
      exact .inr ⟨now, rfl, hstop, hbefore, rfl⟩
    · have hother : Function.update s.consumers mover .exited consumerId = .exited := hexited
      rw [Function.update_of_ne heq] at hother
      exact .inl hother

/-- `run` has joined only consumers that have exited. -/
def State.JoinsExited (s : State producerCount consumerCount) : Prop :=
  ∀ consumerId : Fin consumerCount, s.main.Joined producerCount consumerId →
    s.consumers consumerId = .exited

/-- Every consumer that `run` has joined has exited, in every reachable state. -/
theorem State.joinsExited_of_reachable {s : State producerCount consumerCount}
    (hreach : (queueMachine producerCount consumerCount).Reachable s) : s.JoinsExited := by
  refine transition.Machine.ReachableBy.invariant ?_ ?_ hreach
  · rintro s ⟨stop, rfl⟩ consumerId hjoined
    cases hjoined
  · intro s action next hreach hexited _ hstep consumerId hjoined
    have hmove := State.move_of_step hstep
    have hstays : s.consumers consumerId = .exited → next.consumers consumerId = .exited :=
      State.exited_step (State.exclusive_of_reachable hreach) hmove
    cases hmove with
    | run _ hearlier => exact hstays ((hearlier consumerId hjoined).elim (hexited consumerId) id)
    | create => cases hjoined
    | outside | push | lock | within | block | exit | pop => exact hstays (hexited consumerId hjoined)

/-- The steps that leave no item behind: no consumer heeds the stop flag at its
loop head as the last one running while items are queued, and no item is pushed
once all consumers have exited. -/
def State.KeepsDraining (s : State producerCount consumerCount) :
    Action producerCount consumerCount → Prop
  | .consumerStep consumerId _ => s.consumers consumerId = .testingStop → s.stop = true →
      (∀ other, other ≠ consumerId → s.consumers other = .exited) → s.workItems = []
  | .producerStep producerId _ => s.producers producerId = .pushing →
      s.workItems.length < maxQueueSize → ∃ consumerId, s.consumers consumerId ≠ .exited
  | _ => True

/-- Items are left and no consumer is. -/
def State.Stranded (s : State producerCount consumerCount) : Prop :=
  (∀ consumerId, s.consumers consumerId = .exited) ∧ s.workItems ≠ []

/-- Without consumers the queue can only grow. -/
theorem State.Stranded.step {s next : State producerCount consumerCount} (h : s.Stranded)
    (hexclusive : s.Exclusive) {action : Action producerCount consumerCount}
    (hstep : s.step action = some next) : next.Stranded := by
  obtain ⟨hexited, hitems⟩ := h
  have hmove := State.move_of_step hstep
  refine ⟨fun consumerId => State.exited_step hexclusive hmove (hexited consumerId), ?_⟩
  cases hmove with
  | push => simp [State.push]
  | pop hbefore => cases (hexited _).symm.trans hbefore
  | outside | run | create | lock | within | block | exit => exact hitems

/-- A step that breaks the condition strands what it leaves or adds. -/
theorem State.stranded_of_not_keepsDraining {s next : State producerCount consumerCount}
    {action : Action producerCount consumerCount} (hbreaks : ¬ s.KeepsDraining action)
    (hstep : s.step action = some next) : next.Stranded := by
  cases action with
  | consumerStep consumerId now =>
    simp only [State.KeepsDraining, Classical.not_imp] at hbreaks
    obtain ⟨hphase, hstop, hothers, hitems⟩ := hbreaks
    simp only [State.step, State.consumerStep, hphase, hstop, if_true, Option.some.injEq] at hstep
    subst hstep
    refine ⟨fun other => ?_, hitems⟩
    by_cases hother : other = consumerId
    · simp [State.unlock, hother]
    · simp [State.unlock, hother, hothers other hother]
  | producerStep producerId now =>
    simp only [State.KeepsDraining, Classical.not_imp, not_exists, not_not] at hbreaks
    obtain ⟨hphase, hroom, hexited⟩ := hbreaks
    simp only [State.step, State.producerStep, hphase, hroom, if_true,
      Option.ite_none_right_eq_some, Option.some.injEq] at hstep
    obtain ⟨_, rfl⟩ := hstep
    exact ⟨hexited, by simp [State.push]⟩
  | _ => exact absurd trivial hbreaks

/-- In a run that keeps to the condition, the last consumer leaves an empty
queue, and it stays empty. -/
def State.ExitsDrained (s : State producerCount consumerCount) : Prop :=
  (∀ consumerId, s.consumers consumerId = .exited) → s.workItems = []

/-- A step that keeps draining keeps the queue empty once a consumer has exited. -/
theorem State.ExitsDrained.step {s next : State producerCount consumerCount} (h : s.ExitsDrained)
    (hexclusive : s.Exclusive) {action : Action producerCount consumerCount}
    (hkeeps : s.KeepsDraining action) (hstep : s.step action = some next) :
    next.ExitsDrained := by
  intro hexited
  have hmove := State.move_of_step hstep
  by_cases hall : ∀ consumerId, s.consumers consumerId = .exited
  · have hitems := h hall
    cases hmove with
    | push hphase _ hroom =>
      obtain ⟨consumerId, hrunning⟩ := hkeeps hphase hroom
      exact absurd (hall consumerId) hrunning
    | pop hbefore => cases (hall _).symm.trans hbefore
    | outside | run | create | lock | within | block | exit => exact hitems
  · obtain ⟨consumerId, hrunning⟩ := not_forall.mp hall
    obtain ⟨now, rfl, hstop, hbefore, hitems⟩ :=
      (State.exited_of_step hmove (hexited consumerId)).resolve_left hrunning
    rw [hitems]
    rcases hbefore with htestingStop | hfoundEmpty
    · apply hkeeps htestingStop hstop
      intro other hother
      rcases State.exited_of_step hmove (hexited other) with hearlier | ⟨_, haction, _⟩
      · exact hearlier
      · cases haction
        exact absurd rfl hother
    · have htested := hexclusive.tested consumerId
      rwa [hfoundEmpty] at htested

/-- In a run that keeps draining, a consumer exits only with the queue empty. -/
theorem State.exitsDrained_of_reachableBy {s : State producerCount consumerCount}
    (hreach : (queueMachine producerCount consumerCount).ReachableBy State.KeepsDraining s) :
    s.ExitsDrained := by
  refine transition.Machine.ReachableBy.invariant ?_ ?_ hreach
  · rintro s ⟨stop, rfl⟩ _
    rfl
  · intro s action next hreach hdrained hkeeps hstep
    exact hdrained.step (State.exclusive_of_reachable hreach.reachable) hkeeps hstep

/-- When `run` returns, every item pushed has been popped once, in the order of the pushes, or
is left in the queue; and none is left exactly if every step of the run kept to the condition. -/
theorem State.leftover_of_returned {start s : State producerCount consumerCount}
    {schedule : List (Action producerCount consumerCount)}
    (hstart : (queueMachine producerCount consumerCount).init start)
    (hrun : (queueMachine producerCount consumerCount).run start schedule = some s)
    (hreturned : s.main = .returned) :
    s.popped ++ s.workItems = s.pushed ∧
      (s.workItems = [] ↔
        (queueMachine producerCount consumerCount).RunsBy State.KeepsDraining start schedule) := by
  have hinit : (queueMachine producerCount consumerCount).Reachable start := .init hstart
  have hreach := hinit.run hrun
  have hexited (consumerId : Fin consumerCount) : s.consumers consumerId = .exited :=
    State.joinsExited_of_reachable hreach consumerId (hreturned ▸ trivial)
  refine ⟨(State.ordered_of_reachable hreach).sent_eq, ?_, ?_⟩
  · intro hitems
    have hstays : ∀ s a next, (queueMachine producerCount consumerCount).Reachable s →
        s.Stranded → (queueMachine producerCount consumerCount).step s a = some next →
          next.Stranded :=
      fun s a next hreach hstranded hstep =>
        hstranded.step (State.exclusive_of_reachable hreach) hstep
    have hruns := transition.Machine.Reachable.runsBy_or
      (fun s a next _ => State.stranded_of_not_keepsDraining) hstays hinit hrun
    exact hruns.resolve_right fun hstranded => hstranded.2 hitems
  · intro hkeeps
    have hpermitted := transition.Machine.ReachableBy.runsBy (.init hstart) hkeeps hrun
    exact State.exitsDrained_of_reachableBy hpermitted hexited

/-- The second consumer pops the one item pushed before both see the stop flag. -/
def consumedItem : List (Action 2 2) :=
  [.mainStep true, .mainStep true, .mainStep true, .mainStep true, .mainStep true,
    .mainStep true, .producerStep 0 5, .producerStep 0 5, .notifyOne 0 none, .consumerStep 1 6,
    .consumerStep 1 6, .consumerStep 1 6, .consumerStep 1 6, .consumerStep 1 6,
    .consumerStep 1 6, .setStop, .producerStep 0 7, .producerStep 1 7, .consumerStep 0 7,
    .consumerStep 0 7, .consumerStep 1 8, .consumerStep 1 8, .mainStep true, .mainStep true,
    .mainStep true, .mainStep true, .mainStep true]

/-- A run of two producers and two consumers in which the one item pushed is popped. -/
theorem leftover_of_returned_none :
    ∃ s : State 2 2, (queueMachine 2 2).run {} consumedItem = some s ∧
      s.pushed = [⟨0, 0, 5⟩] ∧ s.main = .returned ∧
        (queueMachine 2 2).RunsBy State.KeepsDraining {} consumedItem := by
  have hany : ((queueMachine 2 2).run {} consumedItem).any (fun s =>
      s.pushed = [⟨0, 0, 5⟩] ∧ s.main = .returned ∧ s.workItems = []) = true := by
    decide
  obtain ⟨s, hrun, hcheck⟩ := (Option.any_eq_true _ _).mp hany
  obtain ⟨hpushed, hreturned, hitems⟩ := of_decide_eq_true hcheck
  have hruns := (State.leftover_of_returned ⟨false, rfl⟩ hrun hreturned).2.mp hitems
  exact ⟨s, hrun, hpushed, hreturned, hruns⟩

/-- Both consumers see the stop flag at their loop head, with an item queued. -/
theorem exists_leftover_item :
    ∃ s : State 2 2, (queueMachine 2 2).Reachable s ∧ s.main = .returned ∧
      s.workItems = [⟨0, 0, 5⟩] ∧ s.popped = [] := by
  obtain ⟨s, hreach, hcheck⟩ := transition.Machine.exists_reachable_of_run
    (M := queueMachine 2 2) (s := {}) ⟨false, rfl⟩
    [.mainStep true, .mainStep true, .mainStep true, .mainStep true, .mainStep true,
      .mainStep true, .producerStep 0 5, .producerStep 0 5, .notifyOne 0 none, .setStop,
      .producerStep 0 7, .producerStep 1 7, .consumerStep 0 7, .consumerStep 0 7,
      .consumerStep 1 8, .consumerStep 1 8, .mainStep true, .mainStep true, .mainStep true,
      .mainStep true, .mainStep true]
    (fun s => s.main = .returned ∧ s.workItems = [⟨0, 0, 5⟩] ∧ s.popped = []) (by decide)
  exact ⟨s, hreach, of_decide_eq_true hcheck⟩

end spdlogger.producer_consumer_queue
