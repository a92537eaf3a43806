import Spdlogger.Library.Mutex
import Spdlogger.RideStateManager.Turns

namespace spdlogger.ride_state_manager

variable {Dispatcher Observer Tid : Type} [DecidableEq Dispatcher] [DecidableEq Observer]
  [Fintype Tid] [DecidableEq Tid]

/-- A thread is inside one of the three loops over `observers_`. -/
def State.inside (s : State Dispatcher Observer Tid) : Holder Tid → Bool
  | .observerThread => s.observerThread.scans
  | .caller thread => (s.callers thread).scans

/-- `observersMutex_` belongs to the thread inside a loop over `observers_`, and
`notificationsMutex_` to the one inside a loop of `subscribe` or `unsubscribe`. -/
structure State.Locked (s : State Dispatcher Observer Tid) : Prop where
  observers : mutex.HeldBy id s.inside s.observersMutex
  notifications : mutex.HeldBy CallerPhase.scans s.callers s.notificationsMutex

omit [DecidableEq Dispatcher] [DecidableEq Observer] [Fintype Tid] [DecidableEq Tid] in
/-- Everyone but the one inside is outside. -/
theorem State.Locked.outside {s : State Dispatcher Observer Tid} (h : s.Locked)
    {holder other : Holder Tid} (hinside : s.inside holder = true) (hother : other ≠ holder) :
    s.inside other = false := by
  by_contra hboth
  exact hother (h.observers.unique (by simpa using hboth) hinside)

section Outside

variable {s : State Dispatcher Observer Tid} {thread other : Tid}

omit [DecidableEq Dispatcher] [DecidableEq Observer] [Fintype Tid] [DecidableEq Tid] in
/-- While the observer thread is in its loop, no call is in one. -/
theorem State.Locked.callers_outside (h : s.Locked) (hscans : s.observerThread.scans) :
    (s.callers thread).scans = false := by
  have hinside : s.inside .observerThread = true := hscans
  have houtside : s.inside (.caller thread) = false := h.outside hinside (by simp)
  exact houtside

omit [DecidableEq Dispatcher] [DecidableEq Observer] [Fintype Tid] [DecidableEq Tid] in
/-- While a call is in its loop, the observer thread is not in its own. -/
theorem State.Locked.thread_outside (h : s.Locked) (hscans : (s.callers thread).scans) :
    s.observerThread.scans = false := by
  have hinside : s.inside (.caller thread) = true := hscans
  have houtside : s.inside .observerThread = false := h.outside hinside (by simp)
  exact houtside

omit [DecidableEq Dispatcher] [DecidableEq Observer] [Fintype Tid] [DecidableEq Tid] in
/-- While a call is in its loop, no other call is in one. -/
theorem State.Locked.others_outside (h : s.Locked) (hscans : (s.callers thread).scans)
    (hother : other ≠ thread) : (s.callers other).scans = false := by
  have hinside : s.inside (.caller thread) = true := hscans
  have houtside : s.inside (.caller other) = false := h.outside hinside (by simpa using hother)
  exact houtside

omit [DecidableEq Dispatcher] [DecidableEq Observer] [Fintype Tid] [DecidableEq Tid] in
/-- While `observersMutex_` is free, nobody is inside. -/
theorem State.Locked.all_outside (h : s.Locked) (hfree : s.observersMutex = none)
    (holder : Holder Tid) : s.inside holder = false := by
  obtain ⟨hheld, _⟩ := h
  rw [hfree] at hheld
  exact hheld.free holder

end Outside

/-- A step of a loop stays inside, or it is the last one and gives up both locks. -/
inductive State.LoopMove (s next : State Dispatcher Observer Tid) (thread : Tid) : Prop where
  | stays (phase : CallerPhase Dispatcher Observer) (hscans : phase.scans = true)
      (hcallers : next.callers = Function.update s.callers thread phase)
      (hobservers : next.observersMutex = s.observersMutex)
      (hnotifications : next.notificationsMutex = s.notificationsMutex)
  | returns (result : Bool)
      (hcallers : next.callers = Function.update s.callers thread (.returned result))
      (hobservers : next.observersMutex = none) (hnotifications : next.notificationsMutex = none)

/-- A step of the loop of `subscribe` stays inside or gives both mutexes up. -/
theorem State.loopMove_subscribeStep (s : State Dispatcher Observer Tid) (thread : Tid)
    (dispatcher : Dispatcher) (observer : Observer) (index : Nat)
    (scan : Scan Dispatcher Observer) :
    s.LoopMove (s.subscribeStep thread dispatcher observer index scan) thread := by
  have hmove := s.subscribeMove thread dispatcher observer index scan
  generalize s.subscribeStep thread dispatcher observer index scan = next at hmove
  cases hmove with
  | append => exact .returns true rfl rfl rfl
  | reject => exact .returns false rfl rfl rfl
  | _ => exact .stays _ rfl rfl rfl rfl

omit [DecidableEq Dispatcher] in
/-- A step of the loop of `unsubscribe` stays inside or gives both mutexes up. -/
theorem State.loopMove_unsubscribeStep (s : State Dispatcher Observer Tid) (thread : Tid)
    (observer : Observer) (index : Nat) (scan : Scan Dispatcher Observer) :
    s.LoopMove (s.unsubscribeStep thread observer index scan) thread := by
  have hmove := s.unsubscribeMove thread observer index scan
  generalize s.unsubscribeStep thread observer index scan = next at hmove
  cases hmove with
  | finish => exact .returns true rfl rfl rfl
  | _ => exact .stays _ rfl rfl rfl rfl

omit [DecidableEq Dispatcher] [DecidableEq Observer] [Fintype Tid] in
/-- A step of a loop moves its own thread only. -/
theorem State.LoopMove.callers {s next : State Dispatcher Observer Tid} {thread : Tid}
    (h : s.LoopMove next thread) :
    ∃ phase, next.callers = Function.update s.callers thread phase := by
  cases h with
  | stays phase _ hcallers => exact ⟨phase, hcallers⟩
  | returns result hcallers => exact ⟨.returned result, hcallers⟩

/-- A step of a call is one of its own thread. -/
theorem State.callers_callerStep {s next : State Dispatcher Observer Tid} {thread : Tid}
    (hstep : s.callerStep thread = some next) :
    ∃ phase, next.callers = Function.update s.callers thread phase := by
  obtain ⟨_, _, _, hnext⟩ | hloop | hloop := State.callerStep_cases hstep
  · obtain rfl | ⟨phase, rfl, _⟩ := hnext
    · exact ⟨_, rfl⟩
    · exact ⟨phase, rfl⟩
  · obtain ⟨dispatcher, observer, index, scan, _, rfl⟩ := hloop
    exact (s.loopMove_subscribeStep thread dispatcher observer index scan).callers
  · obtain ⟨observer, index, scan, _, rfl⟩ := hloop
    exact (s.loopMove_unsubscribeStep thread observer index scan).callers

omit [DecidableEq Dispatcher] [DecidableEq Observer] [Fintype Tid] in
/-- A move of one call changes at most whether that call is inside. -/
theorem State.inside_caller {s next : State Dispatcher Observer Tid} {thread : Tid}
    {phase : CallerPhase Dispatcher Observer}
    (hcallers : next.callers = Function.update s.callers thread phase)
    (hthread : next.observerThread.scans = s.observerThread.scans) :
    next.inside = Function.update s.inside (.caller thread) phase.scans := by
  funext holder
  cases holder with
  | observerThread =>
    rw [Function.update_of_ne (by simp)]
    exact hthread
  | caller other =>
    simp only [State.inside, hcallers]
    by_cases hother : other = thread
    · rw [hother, Function.update_self, Function.update_self]
    · rw [Function.update_of_ne hother, Function.update_of_ne (by simpa using hother)]
      rfl

omit [DecidableEq Dispatcher] [DecidableEq Observer] [Fintype Tid] in
/-- While the calls stand still, only the observer thread can come inside or leave. -/
theorem State.inside_observerThread {s next : State Dispatcher Observer Tid}
    (hcallers : next.callers = s.callers) :
    next.inside = Function.update s.inside .observerThread next.observerThread.scans := by
  funext holder
  cases holder with
  | observerThread => rw [Function.update_self]; rfl
  | caller other =>
    rw [Function.update_of_ne (by simp)]
    simp only [State.inside, hcallers]

omit [DecidableEq Dispatcher] [DecidableEq Observer] [Fintype Tid] [DecidableEq Tid] in
/-- A step that leaves the mutexes and who is inside alone keeps the locking discipline. -/
theorem State.Locked.frame {s next : State Dispatcher Observer Tid} (h : s.Locked)
    (hobservers : next.observersMutex = s.observersMutex)
    (hnotifications : next.notificationsMutex = s.notificationsMutex)
    (hthread : next.observerThread.scans = s.observerThread.scans)
    (hcallers : ∀ thread, (next.callers thread).scans = (s.callers thread).scans) :
    next.Locked := by
  constructor
  · rw [hobservers]
    refine h.observers.congr fun holder => ?_
    cases holder with
    | observerThread => exact hthread
    | caller thread => exact hcallers thread
  · rw [hnotifications]
    exact h.notifications.congr hcallers

omit [DecidableEq Dispatcher] [DecidableEq Observer] [Fintype Tid] in
theorem State.scans_setCaller {s : State Dispatcher Observer Tid} {thread : Tid}
    {phase : CallerPhase Dispatcher Observer} (hphase : phase.scans = (s.callers thread).scans)
    (other : Tid) : ((s.setCaller thread phase).callers other).scans = (s.callers other).scans := by
  by_cases hother : other = thread
  · simp [State.setCaller, hother, hphase]
  · simp [State.setCaller, hother]

omit [DecidableEq Dispatcher] [DecidableEq Observer] [Fintype Tid] in
/-- A step of a loop of `subscribe` or `unsubscribe`. -/
theorem State.Locked.loopMove {s next : State Dispatcher Observer Tid} (h : s.Locked)
    {thread : Tid} (hinside : (s.callers thread).scans = true)
    (hthread : next.observerThread = s.observerThread) (hmove : s.LoopMove next thread) :
    next.Locked := by
  have hself : s.inside (.caller thread) = true := hinside
  cases hmove with
  | stays phase hscans hcallers hobservers hnotifications =>
    refine h.frame hobservers hnotifications (congrArg _ hthread) fun other => ?_
    rw [hcallers]
    exact State.scans_setCaller (hscans.trans hinside.symm) other
  | returns result hcallers hobservers hnotifications =>
    constructor
    · rw [hobservers, State.inside_caller hcallers (congrArg _ hthread)]
      exact h.observers.unlock hself rfl
    · rw [hnotifications, hcallers]
      exact h.notifications.unlock hinside rfl

omit [DecidableEq Dispatcher] [DecidableEq Observer] [Fintype Tid] in
/-- A call begins its loop. -/
theorem State.Locked.lockCaller {s next : State Dispatcher Observer Tid} (h : s.Locked)
    (hobservers : s.observersMutex = none) (hnotifications : s.notificationsMutex = none)
    {thread : Tid} {phase : CallerPhase Dispatcher Observer} (hscans : phase.scans = true)
    (hcallers : next.callers = Function.update s.callers thread phase)
    (hthread : next.observerThread = s.observerThread)
    (hnextObservers : next.observersMutex = some (.caller thread))
    (hnextNotifications : next.notificationsMutex = some thread) : next.Locked := by
  obtain ⟨hheld, hnotified⟩ := h
  rw [hobservers] at hheld
  rw [hnotifications] at hnotified
  constructor
  · rw [hnextObservers, State.inside_caller hcallers (congrArg _ hthread)]
    exact hheld.lock hscans
  · rw [hnextNotifications, hcallers]
    exact hnotified.lock hscans

/-- A step of a call keeps the locking discipline. -/
theorem State.Locked.callerStep {s next : State Dispatcher Observer Tid} (h : s.Locked)
    {thread : Tid} (hstep : s.callerStep thread = some next) : next.Locked := by
  have hframe := (State.callFrame_callerStep hstep).observerThread
  obtain ⟨hbefore, hobservers, hnotifications, hnext⟩ | hloop | hloop :=
    State.callerStep_cases hstep
  · obtain rfl | ⟨phase, rfl, hphase⟩ := hnext
    · exact h.frame rfl rfl rfl (State.scans_setCaller hbefore.symm)
    · have hscans : phase.scans = true := by
        obtain ⟨_, _, _, rfl⟩ | ⟨_, _, rfl⟩ := hphase <;> rfl
      exact h.lockCaller hobservers hnotifications hscans rfl rfl rfl rfl
  · obtain ⟨dispatcher, observer, index, scan, hphase, rfl⟩ := hloop
    refine h.loopMove (by rw [hphase]; rfl) hframe ?_
    exact s.loopMove_subscribeStep thread dispatcher observer index scan
  · obtain ⟨observer, index, scan, hphase, rfl⟩ := hloop
    refine h.loopMove (by rw [hphase]; rfl) hframe ?_
    exact s.loopMove_unsubscribeStep thread observer index scan

omit [DecidableEq Tid] in
/-- The observer thread goes on scanning, or it is through and gives up its lock. -/
theorem State.snapshotStep_scans (s : State Dispatcher Observer Tid)
    (notification : NotificationData) (healthyObservers : List (Dispatcher × Observer))
    (index : Nat) (scan : Scan Dispatcher Observer) :
    let next := s.snapshotStep notification healthyObservers index scan
    next.callers = s.callers ∧ next.notificationsMutex = s.notificationsMutex ∧
      (next.observerThread.scans = true ∧ next.observersMutex = s.observersMutex ∨
        next.observerThread.scans = false ∧ next.observersMutex = none) := by
  have hmove := s.snapshotMove notification healthyObservers index scan
  generalize s.snapshotStep notification healthyObservers index scan = next at hmove
  cases hmove with
  | leave => exact ⟨rfl, rfl, .inr ⟨rfl, rfl⟩⟩
  | _ => exact ⟨rfl, rfl, .inl ⟨rfl, rfl⟩⟩

/-- Each step keeps the locking discipline. -/
theorem State.Locked.step {s next : State Dispatcher Observer Tid} (h : s.Locked)
    {action : Action Dispatcher Observer Tid} (hstep : s.step action = some next) :
    next.Locked := by
  cases State.turn_of_step hstep with
  | elsewhere hframe _ _ hthread =>
    refine h.frame hframe.observersMutex hframe.notificationsMutex ?_ fun _ => by rw [hframe.callers]
    obtain hsame | ⟨hbefore, hafter⟩ := hthread
    · rw [hsame]
    · rw [ObserverPhase.scans_of_resting hbefore, ObserverPhase.scans_of_resting hafter]
  | owner hframe hthread =>
    exact h.frame hframe.observersMutex hframe.notificationsMutex (by rw [hthread])
      fun _ => by rw [hframe.callers]
  | call thread phase houtside hscans _ _ hnext =>
    subst hnext
    refine h.frame rfl rfl rfl (State.scans_setCaller ?_)
    rw [hscans, CallerPhase.scans_of_outside houtside]
  | callerStep thread hcaller => exact h.callerStep hcaller
  | lock notification hphase hfree hnext =>
    have hinside : next.inside = Function.update s.inside .observerThread true := by
      rw [hnext]
      exact State.inside_observerThread rfl
    obtain ⟨hheld, hnotified⟩ := h
    rw [hfree] at hheld
    constructor
    · rw [hinside, hnext]
      exact hheld.lock rfl
    · rw [hnext]
      exact hnotified
  | scan notification healthyObservers index scan hphase hnext =>
    subst hnext
    have hinside : s.inside .observerThread = true := by rw [State.inside, hphase]; rfl
    obtain ⟨hcallers, hnotifications, ⟨hscans, hobservers⟩ | ⟨hscans, hobservers⟩⟩ :=
      s.snapshotStep_scans notification healthyObservers index scan
    · refine h.frame hobservers hnotifications (hscans.trans hinside.symm) fun _ => ?_
      rw [hcallers]
    · constructor
      · rw [hobservers, State.inside_observerThread hcallers]
        exact h.observers.unlock hinside hscans
      · rw [hnotifications, hcallers]
        exact h.notifications
  | dispatch _ _ _ _ hphase _ hnext | resume _ _ _ hphase hnext | finish _ _ _ hphase _ hnext =>
    subst hnext
    exact h.frame rfl rfl (by rw [hphase]; rfl) fun _ => rfl

/-- The locking discipline holds in every reachable state. -/
theorem State.locked_of_reachable {s : State Dispatcher Observer Tid}
    (hreach : (rideMachine Dispatcher Observer Tid).Reachable s) : s.Locked := by
  refine transition.Machine.Reachable.invariant ?_ ?_ hreach
  · rintro s ⟨stop, dispatcherOwned, observerOwned, rfl⟩
    constructor
    · intro holder
      cases holder <;> simp [State.inside, ObserverPhase.scans, CallerPhase.scans]
    · intro thread
      simp [CallerPhase.scans]
  · exact fun s action next hlocked hstep => hlocked.step hstep

end spdlogger.ride_state_manager
