import Spdlogger.Library.Progress
import Spdlogger.RideStateManager.Calls

namespace spdlogger.ride_state_manager

/-- Survivors that are not erased stay in their order. -/
theorem sublist_eraseIdx_of_mem {α : Type} [DecidableEq α] {survivors l : List α} {index : Nat}
    (hdistinct : l.Nodup) (hsublist : survivors.Sublist l)
    (hmem : ∀ x ∈ survivors, x ∈ l.eraseIdx index) : survivors.Sublist (l.eraseIdx index) := by
  by_cases hindex : index < l.length
  · have herased : l.eraseIdx index = l.erase l[index] := (hdistinct.erase_getElem index hindex).symm
    rw [herased] at hmem ⊢
    have hgone : l[index] ∉ survivors := fun h => hdistinct.not_mem_erase (hmem _ h)
    have hsame : survivors.erase l[index] = survivors := List.erase_of_not_mem hgone
    rw [← hsame]
    exact hsublist.erase _
  · rw [List.eraseIdx_of_length_le (Nat.le_of_not_lt hindex)]
    exact hsublist

/-- Erasing the entry at the index leaves one fewer from there on. -/
theorem length_eraseIdx_sub {α : Type} (l : List α) (index : Nat) :
    (l.eraseIdx index).length - index = l.length - index - 1 := by
  rw [List.length_eraseIdx]
  split <;> omega

section Remaining

variable {Dispatcher Observer : Type}

/-- How many more steps the loop of `subscribe` takes at most, with so many entries
from its index on. -/
def Scan.subscribeStepsLeft (ahead : Nat) : Scan Dispatcher Observer → Nat
  | .lockingDispatcher => 5 * ahead + 1
  | .lockingObserver _ => 5 * max ahead 1
  | .deciding _ _ => 5 * max ahead 1 - 1
  | .releasingObserver _ _ found => if found then 2 else 5 * ahead + 3
  | .releasingDispatcher _ found => if found then 1 else 5 * ahead + 2

/-- The same for the loop of `unsubscribe`. -/
def Scan.unsubscribeStepsLeft (ahead : Nat) : Scan Dispatcher Observer → Nat
  | .lockingDispatcher | .lockingObserver _ => 3 * ahead + 1
  | .deciding _ _ => 3 * max ahead 1
  | .releasingObserver _ _ _ | .releasingDispatcher _ _ => 3 * ahead + 2

/-- The steps the call has left, with that many entries. -/
def CallerPhase.stepsLeft (length : Nat) : CallerPhase Dispatcher Observer → Nat
  | .subscribing _ _ index scan => scan.subscribeStepsLeft (length - index)
  | .unsubscribing _ index scan => scan.unsubscribeStepsLeft (length - index)
  | .idle | .acquiringSubscribe _ _ | .acquiringUnsubscribe _ | .returned _ => 0

/-- A loop never has more than five steps for each entry and five more. -/
theorem CallerPhase.stepsLeft_le (length : Nat) (phase : CallerPhase Dispatcher Observer) :
    phase.stepsLeft length ≤ 5 * length + 5 := by
  cases phase with
  | subscribing _ _ index scan =>
    cases scan with
    | releasingObserver _ _ found | releasingDispatcher _ found =>
      simp only [CallerPhase.stepsLeft, Scan.subscribeStepsLeft]
      split <;> omega
    | _ =>
      simp only [CallerPhase.stepsLeft, Scan.subscribeStepsLeft]
      omega
  | unsubscribing _ index scan =>
    cases scan <;> simp only [CallerPhase.stepsLeft, Scan.unsubscribeStepsLeft] <;> omega
  | _ =>
    rw [CallerPhase.stepsLeft]
    exact Nat.zero_le _

end Remaining

variable {Dispatcher Observer Tid : Type} [DecidableEq Dispatcher] [DecidableEq Observer]
  [Fintype Tid] [DecidableEq Tid]

/-- The steps a call has left in its loop. -/
def State.stepsLeft (s : State Dispatcher Observer Tid) (thread : Tid) : Nat :=
  (s.callers thread).stepsLeft s.manager.observers.length

/-- A step of the loop of `subscribe` leaves fewer steps. -/
theorem State.stepsLeft_subscribeStep {s : State Dispatcher Observer Tid} {thread : Tid}
    {dispatcher : Dispatcher} {observer : Observer} {index : Nat} {scan : Scan Dispatcher Observer}
    (hphase : s.callers thread = .subscribing dispatcher observer index scan) :
    (s.subscribeStep thread dispatcher observer index scan).stepsLeft thread < s.stepsLeft thread := by
  have hahead := length_eraseIdx_sub s.manager.observers index
  rw [State.stepsLeft, State.stepsLeft, hphase]
  have hmove := s.subscribeMove thread dispatcher observer index scan
  generalize s.subscribeStep thread dispatcher observer index scan = next at hmove ⊢
  cases hmove with
  | append | reject =>
    simp [State.finishCall, State.setCaller, CallerPhase.stepsLeft, Scan.subscribeStepsLeft]
  | lockDispatcher | lockObserver =>
    simp only [State.setCaller, Function.update_self, CallerPhase.stepsLeft, Scan.subscribeStepsLeft]
    omega
  | find =>
    simp only [State.setCaller, Function.update_self, CallerPhase.stepsLeft, Scan.subscribeStepsLeft,
      if_true]
    omega
  | pass =>
    simp only [State.setCaller, Function.update_self, CallerPhase.stepsLeft, Scan.subscribeStepsLeft,
      Bool.false_eq_true, if_false]
    omega
  | erase =>
    simp only [State.setCaller, State.eraseEntry, Function.update_self, CallerPhase.stepsLeft,
      Scan.subscribeStepsLeft, hahead, Bool.false_eq_true, if_false]
    omega
  | releaseObserver _ _ found =>
    simp only [State.setCaller, Function.update_self, CallerPhase.stepsLeft, Scan.subscribeStepsLeft]
    cases found <;> simp
  | next => simp [State.setCaller, CallerPhase.stepsLeft, Scan.subscribeStepsLeft]

omit [DecidableEq Dispatcher] in
/-- A step of the loop of `unsubscribe` leaves fewer steps. -/
theorem State.stepsLeft_unsubscribeStep {s : State Dispatcher Observer Tid} {thread : Tid}
    {observer : Observer} {index : Nat} {scan : Scan Dispatcher Observer}
    (hphase : s.callers thread = .unsubscribing observer index scan) :
    (s.unsubscribeStep thread observer index scan).stepsLeft thread < s.stepsLeft thread := by
  have hahead := length_eraseIdx_sub s.manager.observers index
  rw [State.stepsLeft, State.stepsLeft, hphase]
  have hmove := s.unsubscribeMove thread observer index scan
  generalize s.unsubscribeStep thread observer index scan = next at hmove ⊢
  cases hmove with
  | lockObserver _ hlocking | finish _ hlocking =>
    cases scan with
    | lockingDispatcher | lockingObserver =>
      simp only [State.finishCall, State.setCaller, Function.update_self, CallerPhase.stepsLeft,
        Scan.unsubscribeStepsLeft]
      omega
    | _ => cases hlocking
  | erase | eraseExpired =>
    simp only [State.setCaller, State.eraseEntry, Function.update_self, CallerPhase.stepsLeft,
      Scan.unsubscribeStepsLeft, hahead]
    omega
  | pass =>
    simp only [State.setCaller, Function.update_self, CallerPhase.stepsLeft,
      Scan.unsubscribeStepsLeft]
    omega
  | next _ hreleasing =>
    cases scan with
    | releasingObserver | releasingDispatcher =>
      simp only [State.setCaller, Function.update_self, CallerPhase.stepsLeft,
        Scan.unsubscribeStepsLeft]
      omega
    | _ => cases hreleasing

/-- A step of the thread with this number inside its call. -/
def Action.isCallerStep (thread : Tid) : Action Dispatcher Observer Tid → Bool
  | .callerStep other => other = thread
  | _ => false

/-- A call's own step leaves it fewer steps. -/
theorem State.stepsLeft_own {s next : State Dispatcher Observer Tid}
    (hreach : (rideMachine Dispatcher Observer Tid).Reachable s) {thread : Tid}
    (hscans : (s.callers thread).scans) {action : Action Dispatcher Observer Tid}
    (hown : action.isCallerStep thread) (hstep : s.step action = some next) :
    next.stepsLeft thread < s.stepsLeft thread := by
  obtain ⟨_, hcaller⟩ | ⟨hother, _⟩ := (State.locked_of_reachable hreach).alone hscans hstep
  · unfold State.callerStep at hcaller
    cases hphase : s.callers thread with
    | subscribing dispatcher observer index scan =>
      simp only [hphase, Option.some.injEq] at hcaller
      rw [← hcaller]
      exact State.stepsLeft_subscribeStep hphase
    | unsubscribing observer index scan =>
      simp only [hphase, Option.some.injEq] at hcaller
      rw [← hcaller]
      exact State.stepsLeft_unsubscribeStep hphase
    | _ =>
      rw [hphase] at hscans
      cases hscans
  · cases action with
    | callerStep other =>
      simp only [Action.isCallerStep, decide_eq_true_eq] at hown
      exact absurd (congrArg _ hown) hother
    | _ => cases hown

/-- However the others run in between, a call leaves its loop after a bounded number
of its own steps, each of which it can always take. -/
theorem State.countP_callerStep_le {s last : State Dispatcher Observer Tid}
    (hreach : (rideMachine Dispatcher Observer Tid).Reachable s) {thread : Tid}
    {schedule : List (Action Dispatcher Observer Tid)}
    (hinside : (rideMachine Dispatcher Observer Tid).RunsBy
      (fun s _ => (s.callers thread).scans) s schedule)
    (hrun : (rideMachine Dispatcher Observer Tid).run s schedule = some last) :
    schedule.countP (Action.isCallerStep thread) ≤ 5 * s.manager.observers.length + 5 := by
  have hbound : s.stepsLeft thread ≤ 5 * s.manager.observers.length + 5 :=
    CallerPhase.stepsLeft_le _ _
  have hspent : schedule.countP (Action.isCallerStep thread) + last.stepsLeft thread ≤
      s.stepsLeft thread := by
    refine hreach.countP_le (Action.isCallerStep thread) (fun s => s.stepsLeft thread)
      (fun before action next hs hscans hown hstep => ?_)
      (fun before action next hs hscans hown hstep => ?_) hinside hrun
    · exact State.stepsLeft_own hs hscans hown hstep
    · obtain ⟨rfl, _⟩ | ⟨_, hobservers, hcallers⟩ :=
        (State.locked_of_reachable hs).alone hscans hstep
      · simp [Action.isCallerStep] at hown
      · rw [State.stepsLeft, State.stepsLeft, hobservers, hcallers]
  omega

/-- A call inside its loop can always take a step. -/
theorem State.callerStep_isSome {s : State Dispatcher Observer Tid} {thread : Tid}
    (hscans : (s.callers thread).scans) : (s.callerStep thread).isSome := by
  unfold State.callerStep
  cases hphase : s.callers thread with
  | subscribing | unsubscribing => rfl
  | _ =>
    rw [hphase] at hscans
    cases hscans

/-- Entries that stay in `observers_` stay in the order they are in. -/
theorem State.survivors_sublist {s last : State Dispatcher Observer Tid}
    (hreach : (rideMachine Dispatcher Observer Tid).Reachable s)
    {survivors : List (ObserverData Dispatcher Observer)}
    (hsublist : survivors.Sublist s.manager.observers)
    {schedule : List (Action Dispatcher Observer Tid)}
    (hstay : (rideMachine Dispatcher Observer Tid).RunsBy
      (fun s _ => ∀ entry ∈ survivors, entry ∈ s.manager.observers) s schedule)
    (hrun : (rideMachine Dispatcher Observer Tid).run s schedule = some last)
    (hlast : ∀ entry ∈ survivors, entry ∈ last.manager.observers) :
    survivors.Sublist last.manager.observers := by
  refine hreach.preserved (I := fun s => (∀ entry ∈ survivors, entry ∈ s.manager.observers) →
    survivors.Sublist s.manager.observers) (fun before action next hs hsafe hthere hstep hstill => ?_)
    (fun _ => hsublist) hstay hrun hlast
  have hscanned := State.scanned_of_reachable hs
  have hordered := hsafe hthere
  cases hscanned.edit_of_step hstep with
  | keep hnext =>
    rw [hnext]
    exact hordered
  | push entry _ hnext =>
    rw [hnext]
    exact hordered.trans (List.sublist_append_left _ _)
  | erase index _ hnext =>
    rw [hnext] at hstill ⊢
    exact sublist_eraseIdx_of_mem hscanned.distinct hordered hstill

/-- What a call begins with, where null pointers are turned away at once. -/
def subscribePhase (dispatcher : Option Dispatcher) (observer : Option Observer) :
    CallerPhase Dispatcher Observer :=
  match dispatcher, observer with
  | some dispatcher, some observer => .acquiringSubscribe dispatcher observer
  | _, _ => .returned false

/-- Where a call of `unsubscribe` starts. -/
def unsubscribePhase (observer : Option Observer) : CallerPhase Dispatcher Observer :=
  match observer with
  | some observer => .acquiringUnsubscribe observer
  | none => .returned false

/-- A call of `subscribe` begins where its arguments say. -/
theorem State.setCaller_of_subscribe {s next : State Dispatcher Observer Tid} {thread : Tid}
    {dispatcher : Option Dispatcher} {observer : Option Observer}
    (hstep : s.step (.subscribe thread dispatcher observer) = some next) :
    next = s.setCaller thread (subscribePhase dispatcher observer) := by
  cases dispatcher <;> cases observer <;>
    · simp only [State.step, State.call, Option.ite_none_right_eq_some, Option.some.injEq] at hstep
      exact hstep.2.symm

/-- A call of `unsubscribe` begins where its argument says. -/
theorem State.setCaller_of_unsubscribe {s next : State Dispatcher Observer Tid} {thread : Tid}
    {observer : Option Observer} (hstep : s.step (.unsubscribe thread observer) = some next) :
    next = s.setCaller thread (unsubscribePhase observer) := by
  cases observer <;>
    · simp only [State.step, State.call, Option.ite_none_right_eq_some, Option.some.injEq] at hstep
      exact hstep.2.symm

omit [DecidableEq Dispatcher] [DecidableEq Observer] [Fintype Tid] in
theorem State.callers_setCaller (s : State Dispatcher Observer Tid) (thread : Tid)
    (phase : CallerPhase Dispatcher Observer) : (s.setCaller thread phase).callers thread = phase :=
  Function.update_self _ _ _

/-- The thread takes the locks in `s` and returns in `last`, its loop in between. -/
structure State.Returns (s : State Dispatcher Observer Tid) (thread : Tid)
    (inLoop : State Dispatcher Observer Tid → Prop) (result : Bool)
    (last : State Dispatcher Observer Tid) : Prop where
  run : ∃ locked loop,
    (rideMachine Dispatcher Observer Tid).step s (.callerStep thread) = some locked ∧
    (rideMachine Dispatcher Observer Tid).RunsBy (fun s _ => inLoop s) locked loop ∧
    (rideMachine Dispatcher Observer Tid).run locked loop = some last
  returned : last.callers thread = .returned result

/-- A call that returns as it takes the locks has no loop. -/
theorem State.eq_of_returned {s last : State Dispatcher Observer Tid}
    {inLoop : State Dispatcher Observer Tid → Prop} (houtside : ¬ inLoop s)
    {loop : List (Action Dispatcher Observer Tid)}
    (hinside : (rideMachine Dispatcher Observer Tid).RunsBy (fun s _ => inLoop s) s loop)
    (hrun : (rideMachine Dispatcher Observer Tid).run s loop = some last) : last = s := by
  cases loop with
  | nil => exact (Option.some.inj hrun).symm
  | cons action rest => exact absurd hinside.1 houtside

/-- A call that finds the manager shutting down is turned away and changes nothing. -/
theorem State.Returns.of_isShuttingDown {s last : State Dispatcher Observer Tid} {thread : Tid}
    {inLoop : State Dispatcher Observer Tid → Prop} {result : Bool}
    (hreturns : s.Returns thread inLoop result last)
    (hcall : (∃ dispatcher observer, s.callers thread = .acquiringSubscribe dispatcher observer) ∨
      ∃ observer, s.callers thread = .acquiringUnsubscribe observer)
    (hshutting : s.manager.isShuttingDown = true)
    (houtside : ∀ s, inLoop s → s.callers thread ≠ .returned false) :
    result = false ∧ last.manager.observers = s.manager.observers := by
  obtain ⟨⟨locked, loop, hlock, hinside, hrun⟩, hreturned⟩ := hreturns
  change s.callerStep thread = some locked at hlock
  have hlocked : locked = s.setCaller thread (.returned false) := by
    obtain ⟨dispatcher, observer, hcall⟩ | ⟨observer, hcall⟩ := hcall
    all_goals
      simp only [State.callerStep, hcall, Option.ite_none_right_eq_some, if_pos hshutting,
        Option.some.injEq] at hlock
      exact hlock.2.symm
  have hphase : locked.callers thread = .returned false := by
    rw [hlocked, State.callers_setCaller]
  obtain rfl := State.eq_of_returned (fun hloop => houtside locked hloop hphase) hinside hrun
  rw [hphase, CallerPhase.returned.injEq] at hreturned
  exact ⟨hreturned.symm, by rw [hlocked]; rfl⟩

/-- A `subscribe` that returns says whether its pair was missing, and its entry is there. -/
theorem State.subscribe_result {s last : State Dispatcher Observer Tid}
    (hreach : (rideMachine Dispatcher Observer Tid).Reachable s) {thread : Tid}
    {dispatcher : Dispatcher} {observer : Observer}
    (hcall : s.callers thread = .acquiringSubscribe dispatcher observer) {result : Bool}
    (hreturns : s.Returns thread (State.Subscribing thread dispatcher observer) result last) :
    (result = true ↔ s.manager.isShuttingDown = false ∧
      ⟨dispatcher, observer⟩ ∉ s.manager.observers) ∧
    ∃ kept, last.Kept s.manager.observers kept ∧
      last.manager.observers = if result then kept ++ [⟨dispatcher, observer⟩] else kept := by
  by_cases hshutting : s.manager.isShuttingDown
  · have houtside (s : State Dispatcher Observer Tid)
        (hloop : s.Subscribing thread dispatcher observer) : s.callers thread ≠ .returned false := by
      obtain ⟨_, _, hphase⟩ := hloop
      simp [hphase]
    obtain ⟨rfl, hobservers⟩ :=
      hreturns.of_isShuttingDown (.inl ⟨dispatcher, observer, hcall⟩) hshutting houtside
    exact ⟨by simp [hshutting], s.manager.observers, ⟨List.Sublist.refl _, fun _ h _ => h⟩,
      hobservers⟩
  · obtain ⟨⟨locked, loop, hlock, hinside, hrun⟩, hreturned⟩ := hreturns
    have hcaller : s.callerStep thread = some locked := hlock
    simp only [State.callerStep, hcall, Option.ite_none_right_eq_some, if_neg hshutting,
      Option.some.injEq] at hcaller
    obtain ⟨_, hcaller⟩ := hcaller
    have hphase : locked.callers thread =
        .subscribing dispatcher observer 0 .lockingDispatcher := by
      rw [← hcaller]
      exact Function.update_self _ _ _
    have hobservers : locked.manager.observers = s.manager.observers := by
      rw [← hcaller]
      rfl
    have hdone := State.subscribeReturned_of_run (hreach.step hlock) hphase hinside hrun hreturned
    obtain ⟨value, kept, hvalue, hkept, hiff, happended⟩ := hdone.outcome
    rw [hreturned, CallerPhase.returned.injEq] at hvalue
    subst hvalue
    rw [hobservers] at hkept hiff
    exact ⟨by simp [hiff, hshutting], kept, hkept, happended⟩

/-- What `unsubscribe` has done when it returns. -/
structure State.UnsubscribeResult (s : State Dispatcher Observer Tid) (observer : Observer)
    (result : Bool) (last : State Dispatcher Observer Tid) : Prop where
  result_iff : result = true ↔ s.manager.isShuttingDown = false
  sublist : last.manager.observers.Sublist s.manager.observers
  gone : result = true → ∀ entry ∈ last.manager.observers, entry.observer ≠ observer
  kept : ∀ entry ∈ s.manager.observers, entry.observer ≠ observer →
    last.observerAlive entry.observer → entry ∈ last.manager.observers

/-- An `unsubscribe` that returns `true` has left no entry of its observer, and it spares the
others. -/
theorem State.unsubscribe_result {s last : State Dispatcher Observer Tid}
    (hreach : (rideMachine Dispatcher Observer Tid).Reachable s) {thread : Tid} {observer : Observer}
    (hcall : s.callers thread = .acquiringUnsubscribe observer) {result : Bool}
    (hreturns : s.Returns thread (State.Unsubscribing thread observer) result last) :
    s.UnsubscribeResult observer result last := by
  by_cases hshutting : s.manager.isShuttingDown
  · have houtside (s : State Dispatcher Observer Tid) (hloop : s.Unsubscribing thread observer) :
        s.callers thread ≠ .returned false := by
      obtain ⟨_, _, hphase⟩ := hloop
      simp [hphase]
    obtain ⟨rfl, hobservers⟩ :=
      hreturns.of_isShuttingDown (.inr ⟨observer, hcall⟩) hshutting houtside
    refine ⟨by simp [hshutting], ?_, by simp, fun entry hentry _ _ => ?_⟩
    · rw [hobservers]
    · rw [hobservers]
      exact hentry
  · obtain ⟨⟨locked, loop, hlock, hinside, hrun⟩, hreturned⟩ := hreturns
    have hcaller : s.callerStep thread = some locked := hlock
    simp only [State.callerStep, hcall, Option.ite_none_right_eq_some, if_neg hshutting,
      Option.some.injEq] at hcaller
    obtain ⟨_, hcaller⟩ := hcaller
    have hphase : State.Unsubscribing thread observer locked := by
      rw [← hcaller]
      exact ⟨_, _, Function.update_self _ _ _⟩
    have hobservers : locked.manager.observers = s.manager.observers := by
      rw [← hcaller]
      rfl
    obtain ⟨hsublist, hkept, hend⟩ :=
      State.unsubscribed_of_run (hreach.step hlock) hphase hinside hrun
    rw [hobservers] at hsublist hkept
    obtain ⟨_, _, hloop⟩ | ⟨htrue, hgone⟩ := hend
    · rw [hreturned] at hloop
      cases hloop
    · rw [hreturned, CallerPhase.returned.injEq] at htrue
      subst htrue
      exact ⟨by simp [hshutting], hsublist, fun _ => hgone, hkept⟩

/-- What callers may rely on from a state on. Entries are told apart by their pairs,
expired ones included. -/
structure State.SubscriptionsSound (s : State Dispatcher Observer Tid) : Prop where
  unique : s.manager.observers.Nodup
  subscribe_called : ∀ thread dispatcher observer next,
    (rideMachine Dispatcher Observer Tid).step s (.subscribe thread dispatcher observer) = some next →
    next = s.setCaller thread (subscribePhase dispatcher observer)
  subscribe_returned : ∀ thread dispatcher observer,
    s.callers thread = .acquiringSubscribe dispatcher observer → ∀ result last,
    s.Returns thread (State.Subscribing thread dispatcher observer) result last →
    (result = true ↔ s.manager.isShuttingDown = false ∧
      ⟨dispatcher, observer⟩ ∉ s.manager.observers) ∧
    ∃ kept, last.Kept s.manager.observers kept ∧
      last.manager.observers = if result then kept ++ [⟨dispatcher, observer⟩] else kept
  unsubscribe_called : ∀ thread observer next,
    (rideMachine Dispatcher Observer Tid).step s (.unsubscribe thread observer) = some next →
    next = s.setCaller thread (unsubscribePhase observer)
  unsubscribe_returned : ∀ thread observer,
    s.callers thread = .acquiringUnsubscribe observer → ∀ result last,
    s.Returns thread (State.Unsubscribing thread observer) result last →
    s.UnsubscribeResult observer result last
  bounded : ∀ thread, (s.callers thread).scans → (s.callerStep thread).isSome ∧
    ∀ schedule last,
    (rideMachine Dispatcher Observer Tid).RunsBy (fun s _ => (s.callers thread).scans) s schedule →
    (rideMachine Dispatcher Observer Tid).run s schedule = some last →
    schedule.countP (Action.isCallerStep thread) ≤ 5 * s.manager.observers.length + 5
  ordered : ∀ survivors : List (ObserverData Dispatcher Observer),
    survivors.Sublist s.manager.observers → ∀ schedule last,
    (rideMachine Dispatcher Observer Tid).RunsBy
      (fun s _ => ∀ entry ∈ survivors, entry ∈ s.manager.observers) s schedule →
    (rideMachine Dispatcher Observer Tid).run s schedule = some last →
    (∀ entry ∈ survivors, entry ∈ last.manager.observers) →
    survivors.Sublist last.manager.observers

/-- No pair is subscribed twice. `subscribe` returns whether it has appended its pair,
`unsubscribe` leaves nothing of its observer; either drops expired entries at most and returns
within a bounded number of its own steps, and entries that stay keep their order. -/
theorem State.subscriptions_sound {s : State Dispatcher Observer Tid}
    (hreach : (rideMachine Dispatcher Observer Tid).Reachable s) : s.SubscriptionsSound where
  unique := (State.scanned_of_reachable hreach).distinct
  subscribe_called _ _ _ _ hstep := State.setCaller_of_subscribe hstep
  subscribe_returned _ _ _ hcall _ _ hreturns := State.subscribe_result hreach hcall hreturns
  unsubscribe_called _ _ _ hstep := State.setCaller_of_unsubscribe hstep
  unsubscribe_returned _ _ hcall _ _ hreturns := State.unsubscribe_result hreach hcall hreturns
  bounded _ hscans := ⟨State.callerStep_isSome hscans, fun _ _ hinside hrun =>
    State.countP_callerStep_le hreach hinside hrun⟩
  ordered _ hsublist _ _ hstay hrun hlast :=
    State.survivors_sublist hreach hsublist hstay hrun hlast

/-- A second subscription of a pair is turned away. -/
theorem subscriptions_sound_twice :
    ∃ s : State Unit Unit Unit, (rideMachine Unit Unit Unit).Reachable s ∧
      s.callers () = .acquiringSubscribe () () ∧ s.manager.observers = [⟨(), ()⟩] ∧
      ∀ result last, s.Returns () (State.Subscribing () () ()) result last →
        result = false ∧ ∃ kept, last.Kept [⟨(), ()⟩] kept ∧ last.manager.observers = kept := by
  obtain ⟨s, hreach, hcheck⟩ := transition.Machine.exists_reachable_of_run
    (M := rideMachine Unit Unit Unit)
    (s := { dispatcherOwned := fun _ => true, observerOwned := fun _ => true }) ⟨false, _, _, rfl⟩
    [.subscribe () (some ()) (some ()), .callerStep (), .callerStep (),
      .subscribe () (some ()) (some ())]
    (fun s => s.callers () = .acquiringSubscribe () () ∧ s.manager.observers = [⟨(), ()⟩])
    (by decide)
  obtain ⟨hcall, hobservers⟩ := of_decide_eq_true hcheck
  refine ⟨s, hreach, hcall, hobservers, fun result last hreturns => ?_⟩
  obtain ⟨hiff, kept, hkept, happended⟩ :=
    (State.subscriptions_sound hreach).subscribe_returned () () () hcall result last hreturns
  rw [hobservers] at hiff hkept
  have hresult : result = false := by simpa using hiff
  subst hresult
  exact ⟨rfl, kept, hkept, happended⟩

end spdlogger.ride_state_manager
