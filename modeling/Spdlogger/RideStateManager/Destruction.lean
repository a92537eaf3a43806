import Spdlogger.Library.Progress
import Spdlogger.Library.Threads
import Spdlogger.RideStateManager.Exit
import Spdlogger.RideStateManager.UserCode
import Spdlogger.RideStateManager.Waiting

namespace spdlogger.ride_state_manager

section Remaining

variable {Dispatcher Observer : Type}

/-- How far a loop is from the end of its turn for one entry. -/
def Scan.remaining : Scan Dispatcher Observer → Nat
  | .deciding _ _ => 0
  | .lockingObserver _ => 1
  | .lockingDispatcher => 2
  | .releasingDispatcher _ _ => 3
  | .releasingObserver _ _ _ => 4

/-- The most steps that a notification takes from its pop to the next loop test. -/
def roundLength (entries : Nat) : Nat := 7 * entries + 6

/-- How many steps the observer thread has at most before it once the manager shuts
down, with that many entries and that many notifications queued. -/
def ObserverPhase.remaining (entries queued : Nat) : ObserverPhase Dispatcher Observer → Nat
  | .notStarted | .exited => 0
  | .acquiring => queued * roundLength entries + 1
  | .blocked | .testingStop => queued * roundLength entries + 2
  | .popped _ => queued * roundLength entries + roundLength entries
  | .scanning _ healthyObservers index scan =>
    queued * roundLength entries + 2 * healthyObservers.length + 7 * (entries - index) + 3 +
      scan.remaining
  | .dispatching _ healthyObservers index =>
    queued * roundLength entries + 2 * (healthyObservers.length - index) + 3
  | .inDispatch _ healthyObservers index =>
    queued * roundLength entries + 2 * (healthyObservers.length - (index + 1)) + 4

/-- A call that has yet to find out about the shutdown returns in one step. -/
def CallerPhase.remaining : CallerPhase Dispatcher Observer → Nat
  | .acquiringSubscribe _ _ | .acquiringUnsubscribe _ => 1
  | .idle | .subscribing _ _ _ _ | .unsubscribing _ _ _ | .returned _ => 0

/-- The steps the destructor has left. -/
def DestructorPhase.remaining : DestructorPhase → Nat
  | .alive => 4
  | .notifying => 3
  | .testingJoinable => 2
  | .joining => 1
  | .destroyed => 0

/-- A wake-up leaves the thread no more to do. -/
theorem ObserverPhase.remaining_notified_le (entries queued : Nat)
    (phase : ObserverPhase Dispatcher Observer) :
    phase.notified.remaining entries queued ≤ phase.remaining entries queued := by
  cases phase with
  | blocked => exact Nat.le_succ _
  | _ => exact le_rfl

/-- A call has one step left at most. -/
theorem CallerPhase.remaining_le (phase : CallerPhase Dispatcher Observer) :
    phase.remaining ≤ 1 := by
  cases phase <;> simp [CallerPhase.remaining]

end Remaining

variable {Dispatcher Observer Tid : Type} [DecidableEq Dispatcher] [DecidableEq Observer]
  [Fintype Tid] [DecidableEq Tid]

/-- The steps the manager has left once its destruction has begun. -/
def State.remaining (s : State Dispatcher Observer Tid) : Nat :=
  s.observerThread.remaining s.manager.observers.length s.manager.notificationsQueue.length +
    (∑ thread, (s.callers thread).remaining) + s.destructor.remaining

/-- The steps of the manager's own code. -/
def Action.isOwn : Action Dispatcher Observer Tid → Bool
  | .callerStep _ | .observerStep | .destructorStep => true
  | _ => false

/-- The manager shuts down, and nobody is left inside a loop of `subscribe` or `unsubscribe`. -/
structure State.ShutDown (s : State Dispatcher Observer Tid) : Prop where
  destroying : s.destructor ≠ .alive
  outside : ∀ thread, (s.callers thread).scans = false

omit [DecidableEq Tid] in
/-- The observer thread's loop over `observers_` comes to its end. -/
theorem State.remaining_snapshotStep {s : State Dispatcher Observer Tid}
    {notification : NotificationData} {healthyObservers : List (Dispatcher × Observer)}
    {index : Nat} {scan : Scan Dispatcher Observer}
    (hentry : scan.atEntry → index < s.manager.observers.length) :
    let next := s.snapshotStep notification healthyObservers index scan
    next.observerThread.remaining next.manager.observers.length
        next.manager.notificationsQueue.length <
      (ObserverPhase.scanning notification healthyObservers index scan).remaining
        s.manager.observers.length s.manager.notificationsQueue.length := by
  have hmove := s.snapshotMove notification healthyObservers index scan
  generalize s.snapshotStep notification healthyObservers index scan = next at hmove ⊢
  cases hmove with
  | lockDispatcher | lockObserver | releaseObserver | next =>
    simp only [ObserverPhase.remaining, Scan.remaining]
    omega
  | leave =>
    simp only [ObserverPhase.remaining, Scan.remaining]
    omega
  | copy =>
    have hless := hentry rfl
    simp only [ObserverPhase.remaining, Scan.remaining, List.length_append, List.length_singleton]
    omega
  | erase =>
    have hless := hentry rfl
    have hfewer := Nat.mul_le_mul_left s.manager.notificationsQueue.length
      (show roundLength (s.manager.observers.length - 1) ≤ roundLength s.manager.observers.length by
        unfold roundLength
        omega)
    simp only [State.eraseEntry, ObserverPhase.remaining, Scan.remaining,
      List.length_eraseIdx_of_lt hless]
    omega

omit [DecidableEq Tid] in
/-- A step of the observer thread is one of its own. -/
theorem State.remaining_observerStep {s next : State Dispatcher Observer Tid} (h : s.Scanned)
    (hshutting : s.manager.isShuttingDown = true) (hstep : s.observerStep = some next) :
    next.callers = s.callers ∧ next.destructor = s.destructor ∧
      next.observerThread.remaining next.manager.observers.length
          next.manager.notificationsQueue.length <
        s.observerThread.remaining s.manager.observers.length
          s.manager.notificationsQueue.length := by
  have hdestructor := State.destructor_observerStep hstep
  cases State.observerMove_of_step hstep with
  | stop hphase | goOn hphase | leave hphase =>
    refine ⟨rfl, hdestructor, ?_⟩
    simp only [hphase, ObserverPhase.remaining]
    omega
  | sleep _ _ hlive =>
    rw [hshutting] at hlive
    cases hlive
  | pop notification rest hphase _ hqueue =>
    refine ⟨rfl, hdestructor, ?_⟩
    simp only [hphase, hqueue, ObserverPhase.remaining, List.length_cons, Nat.add_one_mul]
    omega
  | lock notification hphase =>
    refine ⟨rfl, hdestructor, ?_⟩
    simp only [hphase, ObserverPhase.remaining, Scan.remaining, roundLength, List.length_nil]
    omega
  | scan notification healthyObservers index scan hphase =>
    have hreads := h.observerThread
    rw [hphase] at hreads
    rw [hphase]
    refine ⟨(s.snapshotStep_scans notification healthyObservers index scan).1, hdestructor, ?_⟩
    exact State.remaining_snapshotStep hreads.2.1
  | dispatch notification healthyObservers index pair hphase hpair =>
    have hless : index < healthyObservers.length := (List.getElem?_eq_some_iff.mp hpair).1
    refine ⟨rfl, hdestructor, ?_⟩
    simp only [hphase, ObserverPhase.remaining]
    omega
  | finish _ _ _ hphase | resume _ _ _ hphase =>
    refine ⟨rfl, hdestructor, ?_⟩
    simp only [hphase, ObserverPhase.remaining]
    omega

/-- What is left for a step to do once the manager shuts down. -/
inductive State.ShutMove (s next : State Dispatcher Observer Tid) :
    Action Dispatcher Observer Tid → Prop where
  | observe (hstep : s.observerStep = some next) : ShutMove s next .observerStep
  | return (thread : Tid) (hphase : (s.callers thread).remaining = 1)
      (hnext : next = s.setCaller thread (.returned false)) : ShutMove s next (.callerStep thread)
  | destruct (hstep : s.destructorStep = some next) : ShutMove s next .destructorStep
  | call {action : Action Dispatcher Observer Tid} (thread : Tid)
      (phase : CallerPhase Dispatcher Observer) (hown : action.isOwn = false)
      (hscans : phase.scans = false) (hnext : next = s.setCaller thread phase) :
      ShutMove s next action
  | idle {action : Action Dispatcher Observer Tid} (hown : action.isOwn = false)
      (hmanager : next.manager = s.manager) (hcallers : next.callers = s.callers)
      (hdestructor : next.destructor = s.destructor)
      (hthread : next.observerThread = s.observerThread ∨
        next.observerThread = s.observerThread.notified) : ShutMove s next action

/-- The begin of a call adds nothing to do for a manager that shuts down. -/
theorem State.shutMove_of_call {s next : State Dispatcher Observer Tid} {thread : Tid}
    {dispatcher : Option Dispatcher} {observer : Option Observer}
    {acquiring : CallerPhase Dispatcher Observer} {action : Action Dispatcher Observer Tid}
    (hown : action.isOwn = false) (hscans : acquiring.scans = false)
    (hstep : s.call thread dispatcher observer acquiring = some next) : s.ShutMove next action := by
  simp only [State.call, Option.ite_none_right_eq_some, Option.some.injEq] at hstep
  exact .call thread acquiring hown hscans hstep.2.symm

/-- During the shutdown every step is one of the few that are left. -/
theorem State.ShutDown.move {s next : State Dispatcher Observer Tid} (h : s.ShutDown)
    (hshutting : s.manager.isShuttingDown = true) {action : Action Dispatcher Observer Tid}
    (hstep : s.step action = some next) : s.ShutMove next action := by
  cases action with
  | setStop | releaseDispatcher | releaseObserver =>
    simp only [State.step, Option.some.injEq] at hstep
    subst hstep
    exact .idle rfl rfl rfl rfl (.inl rfl)
  | retainDispatcher | retainObserver =>
    simp only [State.step, Option.ite_none_right_eq_some, Option.some.injEq] at hstep
    obtain ⟨_, rfl⟩ := hstep
    exact .idle rfl rfl rfl rfl (.inl rfl)
  | run =>
    simp only [State.step, Option.ite_none_right_eq_some, Option.some.injEq] at hstep
    exact absurd hstep.1.2 h.destroying
  | changeState call =>
    obtain ⟨_, ⟨haccepts, _⟩ | ⟨_, rfl⟩⟩ := State.changeState_cases hstep
    · have hlive := haccepts.live
      rw [hshutting] at hlive
      cases hlive
    · exact .idle rfl rfl rfl rfl (.inl rfl)
  | subscribe thread dispatcher observer =>
    cases dispatcher <;> cases observer <;> exact State.shutMove_of_call rfl rfl hstep
  | unsubscribe thread observer => cases observer <;> exact State.shutMove_of_call rfl rfl hstep
  | callerStep thread =>
    have houtside := h.outside thread
    change s.callerStep thread = some next at hstep
    cases hphase : s.callers thread with
    | acquiringSubscribe | acquiringUnsubscribe =>
      simp only [State.callerStep, hphase, hshutting, if_true, Option.ite_none_right_eq_some,
        Option.some.injEq] at hstep
      exact .return thread (by rw [hphase]; rfl) hstep.2.symm
    | subscribing | unsubscribing =>
      rw [hphase] at houtside
      cases houtside
    | idle | returned => simp [State.callerStep, hphase] at hstep
  | observerStep => exact .observe hstep
  | spuriousWake =>
    simp only [State.step, Option.ite_none_right_eq_some, Option.some.injEq] at hstep
    obtain ⟨hphase, rfl⟩ := hstep
    exact .idle rfl rfl rfl rfl (.inr (by rw [hphase]; rfl))
  | destructorStep => exact .destruct hstep

omit [Fintype Tid] [DecidableEq Tid] in
/-- The destructor goes on by steps of its own. -/
theorem State.ShutDown.destructorStep {s next : State Dispatcher Observer Tid} (h : s.ShutDown)
    (hstep : s.destructorStep = some next) :
    next.manager = s.manager ∧ next.callers = s.callers ∧ next.destructor ≠ .alive ∧
      next.destructor.remaining < s.destructor.remaining ∧
      (next.observerThread = s.observerThread ∨
        next.observerThread = s.observerThread.notified) := by
  obtain ⟨halive, _⟩ | ⟨hphase, rfl⟩ | ⟨hphase, rfl⟩ | ⟨hphase, _, rfl⟩ :=
    State.destructorStep_cases hstep
  · exact absurd halive h.destroying
  · rw [hphase]
    exact ⟨rfl, rfl, by simp, Nat.lt_succ_self 2, .inr rfl⟩
  · rw [hphase]
    refine ⟨rfl, rfl, ?_, ?_, .inl rfl⟩
    · dsimp only
      split <;> simp
    · dsimp only
      split <;> decide
  · rw [hphase]
    exact ⟨rfl, rfl, by simp, Nat.lt_succ_self 0, .inl rfl⟩

/-- A step after the shutdown is one less to go, or a call that has come too late. -/
theorem State.ShutDown.step {s next : State Dispatcher Observer Tid} (h : s.ShutDown)
    (hscanned : s.Scanned) (hshutting : s.manager.isShuttingDown = true)
    {action : Action Dispatcher Observer Tid} (hstep : s.step action = some next) :
    next.ShutDown ∧ (action.isOwn = true → next.remaining < s.remaining) ∧
      next.remaining ≤ s.remaining + 1 := by
  have hwakes := s.observerThread.remaining_notified_le s.manager.observers.length
    s.manager.notificationsQueue.length
  cases h.move hshutting hstep with
  | observe hstep =>
    obtain ⟨hcallers, hdestructor, hless⟩ := State.remaining_observerStep hscanned hshutting hstep
    refine ⟨⟨hdestructor ▸ h.destroying, hcallers ▸ h.outside⟩, fun _ => ?_, ?_⟩ <;>
      unfold State.remaining <;> rw [hcallers, hdestructor] <;> omega
  | «return» thread hphase hnext =>
    have hsum := threads.sum_update_add CallerPhase.remaining s.callers thread (.returned false)
    subst hnext
    refine ⟨⟨h.destroying, fun other => ?_⟩, fun _ => ?_, ?_⟩
    · have hsame : (CallerPhase.returned false : CallerPhase Dispatcher Observer).scans =
          (s.callers thread).scans := (h.outside thread).symm
      rw [State.scans_setCaller hsame]
      exact h.outside other
    all_goals
      have hreturned : (CallerPhase.returned false :
        CallerPhase Dispatcher Observer).remaining = 0 := rfl
      rw [hphase, hreturned] at hsum
      simp only [State.remaining, State.setCaller]
      omega
  | destruct hstep =>
    obtain ⟨hmanager, hcallers, hlater, hless, hthread⟩ := h.destructorStep hstep
    refine ⟨⟨hlater, hcallers ▸ h.outside⟩, fun _ => ?_, ?_⟩ <;>
      unfold State.remaining <;> rw [hcallers, hmanager] <;>
      obtain hsame | hnotified := hthread
    · rw [hsame]
      omega
    · rw [hnotified]
      omega
    · rw [hsame]
      omega
    · rw [hnotified]
      omega
  | call thread phase hown hscans hnext =>
    have hsum := threads.sum_update_add CallerPhase.remaining s.callers thread phase
    have hone := phase.remaining_le
    subst hnext
    refine ⟨⟨h.destroying, fun other => ?_⟩, fun hprogress => ?_, ?_⟩
    · rw [State.scans_setCaller (hscans.trans (h.outside thread).symm)]
      exact h.outside other
    · rw [hown] at hprogress
      cases hprogress
    · simp only [State.remaining, State.setCaller]
      omega
  | idle hown hmanager hcallers hdestructor hthread =>
    refine ⟨⟨hdestructor ▸ h.destroying, hcallers ▸ h.outside⟩, fun hprogress => ?_, ?_⟩
    · rw [hown] at hprogress
      cases hprogress
    · unfold State.remaining
      rw [hcallers, hmanager, hdestructor]
      obtain hsame | hnotified := hthread
      · rw [hsame]
        omega
      · rw [hnotified]
        omega

omit [DecidableEq Dispatcher] [DecidableEq Observer] [Fintype Tid] [DecidableEq Tid] in
/-- The shutdown begins behind the last loop that began before it. -/
theorem State.Locked.callers_outside_of_free {s : State Dispatcher Observer Tid} (h : s.Locked)
    (hfree : s.notificationsMutex = none) (thread : Tid) : (s.callers thread).scans = false := by
  have hheld := h.notifications
  rw [hfree] at hheld
  exact hheld.free thread

/-- Once the destructor has begun, the manager shuts down. -/
theorem State.shutDown_of_reachable {s : State Dispatcher Observer Tid}
    (hreach : (rideMachine Dispatcher Observer Tid).Reachable s) (hdestroying : s.destructor ≠ .alive) :
    s.ShutDown := by
  refine transition.Machine.ReachableBy.invariant
    (I := fun s => s.destructor ≠ .alive → s.ShutDown) ?_ ?_ hreach hdestroying
  · rintro s ⟨stop, dispatcherOwned, observerOwned, rfl⟩ hdestroying
    exact absurd rfl hdestroying
  · intro s action next hreach h _ hstep hnext
    by_cases halive : s.destructor = .alive
    · refine ⟨hnext, ?_⟩
      have hlocked := State.locked_of_reachable hreach
      cases State.move_of_step hstep with
      | destructorStep hmove =>
        obtain ⟨_, hfree, rfl⟩ | ⟨hlater, _⟩ | ⟨hlater, _⟩ | ⟨hlater, _⟩ :=
          State.destructorStep_cases hmove
        · exact hlocked.callers_outside_of_free hfree
        all_goals
          rw [halive] at hlater
          cases hlater
      | setStop hnextState | run _ _ hnextState | spuriousWake _ hnextState =>
        rw [hnextState] at hnext
        exact absurd halive hnext
      | changeState hmove =>
        obtain ⟨_, ⟨_, rfl⟩ | ⟨_, rfl⟩⟩ := State.changeState_cases hmove <;>
          exact absurd halive hnext
      | observerStep hmove => exact absurd ((State.destructor_observerStep hmove).trans halive) hnext
      | other _ hframe => exact absurd (hframe.destructor.trans halive) hnext
    · have hshutting := (State.sleepsIdle_of_reachable hreach).shutting halive
      exact ((h halive).step (State.scanned_of_reachable hreach) hshutting hstep).1

/-- A destructor that joins has a thread to join. -/
def State.JoinsThread (s : State Dispatcher Observer Tid) : Prop :=
  s.destructor = .joining → s.observerThread ≠ .notStarted

omit [DecidableEq Tid] in
/-- A step of the observer thread does not undo its start. -/
theorem State.observerStep_started {s next : State Dispatcher Observer Tid}
    (hstep : s.observerStep = some next) : next.observerThread ≠ .notStarted := by
  cases State.observerMove_of_step hstep with
  | scan notification healthyObservers index scan =>
    have hmove := s.snapshotMove notification healthyObservers index scan
    generalize s.snapshotStep notification healthyObservers index scan = next at hmove
    cases hmove <;> simp
  | stop | goOn | sleep | leave | pop | lock | dispatch | finish | resume => simp

/-- Each step keeps the destructor from joining a thread that was not started. -/
theorem State.JoinsThread.step {s next : State Dispatcher Observer Tid} (h : s.JoinsThread)
    {action : Action Dispatcher Observer Tid} (hstep : s.step action = some next) :
    next.JoinsThread := by
  intro hjoining
  cases State.move_of_step hstep with
  | setStop hnext | run _ _ hnext | spuriousWake _ hnext =>
    subst hnext
    first | exact h hjoining | simp
  | changeState hmove =>
    obtain ⟨_, ⟨_, rfl⟩ | ⟨_, rfl⟩⟩ := State.changeState_cases hmove
    · exact fun hnotStarted => h hjoining (ObserverPhase.notified_eq_notStarted.mp hnotStarted)
    · exact h hjoining
  | observerStep hmove => exact State.observerStep_started hmove
  | destructorStep hmove =>
    obtain ⟨_, _, rfl⟩ | ⟨_, rfl⟩ | ⟨_, rfl⟩ | ⟨_, _, rfl⟩ := State.destructorStep_cases hmove
    · cases hjoining
    · cases hjoining
    · intro hnotStarted
      rw [if_pos hnotStarted] at hjoining
      cases hjoining
    · cases hjoining
  | other _ hframe =>
    rw [hframe.observerThread]
    exact h (hframe.destructor ▸ hjoining)

/-- In every reachable state the destructor joins only a thread that was started. -/
theorem State.joinsThread_of_reachable {s : State Dispatcher Observer Tid}
    (hreach : (rideMachine Dispatcher Observer Tid).Reachable s) : s.JoinsThread := by
  refine transition.Machine.Reachable.invariant ?_ ?_ hreach
  · rintro s ⟨stop, dispatcherOwned, observerOwned, rfl⟩
    nofun
  · exact fun s action next hjoins hstep => hjoins.step hstep

/-- No code of the manager can go on without running user code: no call, not the
observer thread, and not the destructor once it has begun. -/
structure State.AtRest (s : State Dispatcher Observer Tid) : Prop where
  callers : ∀ thread next, s.callerStep thread = some next →
    ¬ s.NoUserCode next (.callerStep thread)
  observerThread : ∀ next, s.observerStep = some next → ¬ s.NoUserCode next .observerStep
  destructor : s.destructor ≠ .alive → ∀ next, s.destructorStep = some next →
    ¬ s.NoUserCode next .destructorStep

/-- Every call is back, nobody holds a lock, and the observer thread is gone or has
nothing to do; and a destructor that has begun is through. -/
structure State.Settled (s : State Dispatcher Observer Tid) : Prop where
  callers : ∀ thread, (s.callers thread).outside = true
  observersMutex : s.observersMutex = none
  notificationsMutex : s.notificationsMutex = none
  observerThread : s.observerThread = .notStarted ∨ s.observerThread = .exited ∨
    s.observerThread = .blocked ∧ s.manager.notificationsQueue = [] ∧ s.destructor = .alive
  destructor : s.destructor = .alive ∨ s.destructor = .destroyed

/-- Where the observer thread runs user code: in the dispatch calls, and in the
destructors of what it has kept alive for them. -/
def ObserverPhase.dispatches {Dispatcher Observer : Type} :
    ObserverPhase Dispatcher Observer → Bool
  | .dispatching _ _ _ | .inDispatch _ _ _ => true
  | _ => false

/-- Every call is back, nobody holds a lock, and the observer thread is in user code. A
destructor that has begun waits for it. -/
structure State.InUserCode (s : State Dispatcher Observer Tid) : Prop where
  callers : ∀ thread, (s.callers thread).outside = true
  observersMutex : s.observersMutex = none
  notificationsMutex : s.notificationsMutex = none
  observerThread : s.observerThread.dispatches = true
  destructor : s.destructor = .alive ∨ s.destructor = .joining

section Resting

variable {s : State Dispatcher Observer Tid}

/-- Nothing but user code keeps the calls and the loops under the locks from going on. -/
theorem State.AtRest.callerStep_eq_none (h : s.AtRest)
    (hreach : (rideMachine Dispatcher Observer Tid).ReachableBy State.Careful s) (thread : Tid) :
    s.callerStep thread = none := by
  by_contra hsome
  obtain ⟨next, hstep⟩ := Option.ne_none_iff_exists'.mp hsome
  exact h.callers thread next hstep (State.noUserCode_of_keeps hreach rfl (by simp) hstep)

/-- At rest a destructor that has begun has no step either. -/
theorem State.AtRest.destructorStep_eq_none (h : s.AtRest)
    (hreach : (rideMachine Dispatcher Observer Tid).ReachableBy State.Careful s)
    (hbegun : s.destructor ≠ .alive) : s.destructorStep = none := by
  by_contra hsome
  obtain ⟨next, hstep⟩ := Option.ne_none_iff_exists'.mp hsome
  exact h.destructor hbegun next hstep (State.noUserCode_of_keeps hreach rfl (by simp) hstep)

/-- Outside the dispatch loop the observer thread does not go on either. -/
theorem State.AtRest.observerStep_eq_none (h : s.AtRest)
    (hreach : (rideMachine Dispatcher Observer Tid).ReachableBy State.Careful s)
    (houtside : s.observerThread.dispatches = false) : s.observerStep = none := by
  by_contra hsome
  obtain ⟨next, hstep⟩ := Option.ne_none_iff_exists'.mp hsome
  refine h.observerThread next hstep (State.noUserCode_of_keeps hreach ?_ (fun _ => ?_) hstep)
  · cases hphase : s.observerThread with
    | dispatching | inDispatch =>
      rw [hphase] at houtside
      cases houtside
    | _ => simp [State.letsGo, hphase]
  · cases State.observerMove_of_step hstep with
    | stop hphase | goOn hphase | sleep hphase | leave hphase | pop _ _ hphase | lock _ hphase =>
      exact ⟨by rw [hphase]; rfl, rfl⟩
    | scan notification healthyObservers index scan hphase =>
      refine ⟨by rw [hphase]; rfl, ?_⟩
      obtain ⟨_, ⟨_, _, _, hthread, _⟩ | hthread⟩ :=
        s.locks_snapshotStep notification healthyObservers index scan <;>
      · rw [hthread]
        rfl
    | dispatch _ _ _ _ hphase | finish _ _ _ hphase | resume _ _ _ hphase =>
      rw [hphase] at houtside
      cases houtside

/-- Whoever is inside a loop can go on. -/
theorem State.AtRest.inside_eq_false (h : s.AtRest)
    (hreach : (rideMachine Dispatcher Observer Tid).ReachableBy State.Careful s)
    (holder : Holder Tid) : s.inside holder = false := by
  cases holder with
  | observerThread =>
    cases hphase : s.observerThread with
    | scanning =>
      have hstep := h.observerStep_eq_none hreach (by rw [hphase]; rfl)
      simp [State.observerStep, hphase] at hstep
    | _ => simp [State.inside, hphase, ObserverPhase.scans]
  | caller thread =>
    have hstep := h.callerStep_eq_none hreach thread
    cases hphase : s.callers thread with
    | subscribing | unsubscribing => simp [State.callerStep, hphase] at hstep
    | _ => simp [State.inside, hphase, CallerPhase.scans]

/-- At rest both mutexes are free. -/
theorem State.AtRest.mutexes_free (h : s.AtRest)
    (hreach : (rideMachine Dispatcher Observer Tid).ReachableBy State.Careful s) :
    s.observersMutex = none ∧ s.notificationsMutex = none := by
  have hlocked := State.locked_of_reachable hreach.reachable
  constructor
  · by_contra hheld
    obtain ⟨holder, howner⟩ := Option.ne_none_iff_exists'.mp hheld
    have hinside : s.inside holder = true := (hlocked.observers holder).mpr howner
    rw [h.inside_eq_false hreach holder] at hinside
    cases hinside
  · by_contra hheld
    obtain ⟨thread, howner⟩ := Option.ne_none_iff_exists'.mp hheld
    have hinside : s.inside (.caller thread) = true := (hlocked.notifications thread).mpr howner
    rw [h.inside_eq_false hreach (.caller thread)] at hinside
    cases hinside

/-- At rest every call is back. -/
theorem State.AtRest.callers_outside (h : s.AtRest)
    (hreach : (rideMachine Dispatcher Observer Tid).ReachableBy State.Careful s) (thread : Tid) :
    (s.callers thread).outside = true := by
  obtain ⟨hobservers, hnotifications⟩ := h.mutexes_free hreach
  have hstep := h.callerStep_eq_none hreach thread
  cases hphase : s.callers thread with
  | idle | returned => rfl
  | acquiringSubscribe | acquiringUnsubscribe =>
    simp only [State.callerStep, hphase, hobservers, hnotifications, and_self, if_true] at hstep
    split at hstep <;> cases hstep
  | subscribing | unsubscribing => simp [State.callerStep, hphase] at hstep

/-- At rest outside user code, the observer thread was not started, sleeps or has exited. -/
theorem State.AtRest.observerThread_cases (h : s.AtRest)
    (hreach : (rideMachine Dispatcher Observer Tid).ReachableBy State.Careful s)
    (houtside : s.observerThread.dispatches = false) :
    s.observerThread = .notStarted ∨ s.observerThread = .exited ∨ s.observerThread = .blocked := by
  obtain ⟨hobservers, hnotifications⟩ := h.mutexes_free hreach
  have hstep := h.observerStep_eq_none hreach houtside
  cases hphase : s.observerThread with
  | notStarted => exact .inl rfl
  | exited => exact .inr (.inl rfl)
  | blocked => exact .inr (.inr rfl)
  | acquiring =>
    simp only [State.observerStep, hphase, hnotifications, if_true] at hstep
    split_ifs at hstep
    split at hstep <;> cases hstep
  | popped => simp [State.observerStep, hphase, hobservers] at hstep
  | testingStop | scanning => simp [State.observerStep, hphase] at hstep
  | dispatching | inDispatch =>
    rw [hphase] at houtside
    cases houtside

/-- A destructor that has begun and cannot go on waits for a thread that is still there. -/
theorem State.AtRest.destructor_cases (h : s.AtRest)
    (hreach : (rideMachine Dispatcher Observer Tid).ReachableBy State.Careful s) :
    s.destructor = .alive ∨ s.destructor = .destroyed ∨
      s.destructor = .joining ∧ s.observerThread ≠ .exited := by
  by_cases hbegun : s.destructor = .alive
  · exact .inl hbegun
  · have hstep := h.destructorStep_eq_none hreach hbegun
    cases hphase : s.destructor with
    | alive => exact absurd hphase hbegun
    | destroyed => exact .inr (.inl rfl)
    | notifying | testingJoinable => simp [State.destructorStep, hphase] at hstep
    | joining =>
      simp only [State.destructorStep, hphase, ite_eq_right_iff] at hstep
      exact .inr (.inr ⟨rfl, fun hexited => by cases hstep hexited⟩)

/-- At rest outside user code, everything is settled. -/
theorem State.AtRest.settled (h : s.AtRest)
    (hreach : (rideMachine Dispatcher Observer Tid).ReachableBy State.Careful s)
    (houtside : s.observerThread.dispatches = false) : s.Settled := by
  obtain ⟨hobservers, hnotifications⟩ := h.mutexes_free hreach
  have hidle := State.sleepsIdle_of_reachable hreach.reachable
  have hthread := h.observerThread_cases hreach houtside
  have hdestructor : s.destructor = .alive ∨ s.destructor = .destroyed := by
    obtain halive | hdestroyed | ⟨hjoining, hrunning⟩ := h.destructor_cases hreach
    · exact .inl halive
    · exact .inr hdestroyed
    · obtain hnotStarted | hexited | hblocked := hthread
      · exact absurd hnotStarted (State.joinsThread_of_reachable hreach.reachable hjoining)
      · exact absurd hexited hrunning
      · have hnotifying := hidle.live hblocked (hidle.shutting (by simp [hjoining]))
        rw [hjoining] at hnotifying
        cases hnotifying
  refine ⟨h.callers_outside hreach, hobservers, hnotifications, ?_, hdestructor⟩
  obtain hnotStarted | hexited | hblocked := hthread
  · exact .inl hnotStarted
  · exact .inr (.inl hexited)
  · refine .inr (.inr ⟨hblocked, hidle.queue hblocked, hdestructor.resolve_right fun hdestroyed => ?_⟩)
    have hnotifying := hidle.live hblocked (hidle.shutting (by simp [hdestroyed]))
    rw [hdestroyed] at hnotifying
    cases hnotifying

/-- At rest inside user code, only that is waited for. -/
theorem State.AtRest.inUserCode (h : s.AtRest)
    (hreach : (rideMachine Dispatcher Observer Tid).ReachableBy State.Careful s)
    (hinside : s.observerThread.dispatches = true) : s.InUserCode := by
  obtain ⟨hobservers, hnotifications⟩ := h.mutexes_free hreach
  refine ⟨h.callers_outside hreach, hobservers, hnotifications, hinside, ?_⟩
  obtain halive | hdestroyed | ⟨hjoining, _⟩ := h.destructor_cases hreach
  · exact .inl halive
  · obtain hgone | hgone := State.joined_of_reachable hreach.reachable hdestroyed <;>
    · rw [hgone] at hinside
      cases hinside
  · exact .inr hjoining

omit [DecidableEq Tid] in
/-- User code that the thread is in comes back to its loop. -/
theorem State.InUserCode.observerStep_isSome (h : s.InUserCode) : s.observerStep.isSome := by
  have hinside := h.observerThread
  cases hphase : s.observerThread with
  | dispatching _ healthyObservers index =>
    cases hpair : healthyObservers[index]? <;> simp [State.observerStep, hphase, hpair]
  | inDispatch => simp [State.observerStep, hphase]
  | _ =>
    rw [hphase] at hinside
    cases hinside

end Resting

/-- The manager does not deadlock, and its destruction ends, as long as no destructor of
an observer runs under the locks. When none of its code can go on without user code, then
every call is back and the observer thread is gone or idle, with the destructor through if
it has begun; or the observer thread is in user code outside the locks, from which it goes
on. From the shutdown on, whatever the interleaving, boundedly many steps are left, with
one more at most for each step that others take in between. -/
theorem State.destruction_ends {s : State Dispatcher Observer Tid}
    (hreach : (rideMachine Dispatcher Observer Tid).ReachableBy State.Careful s) :
    (s.AtRest → s.Settled ∨ s.InUserCode ∧ s.observerStep.isSome) ∧
      (s.destructor ≠ .alive → ∀ schedule last,
        (rideMachine Dispatcher Observer Tid).RunsBy State.Careful s schedule →
        (rideMachine Dispatcher Observer Tid).run s schedule = some last →
          schedule.countP Action.isOwn ≤
            s.remaining + schedule.countP fun action => !action.isOwn) := by
  constructor
  · intro hrest
    cases hinside : s.observerThread.dispatches with
    | false => exact .inl (hrest.settled hreach hinside)
    | true =>
      have huser := hrest.inUserCode hreach hinside
      exact .inr ⟨huser, huser.observerStep_isSome⟩
  · intro hdestroying schedule last _ hrun
    have hstep (s next : State Dispatcher Observer Tid) (action : Action Dispatcher Observer Tid)
        (hreach : (rideMachine Dispatcher Observer Tid).Reachable s) (hshut : s.ShutDown)
        (hstep : s.step action = some next) :=
      hshut.step (State.scanned_of_reachable hreach)
        ((State.sleepsIdle_of_reachable hreach).shutting hshut.destroying) hstep
    have hruns := transition.Machine.Reachable.runsBy_of_trapped (I := State.ShutDown)
      (fun s a next hreach hshut h => (hstep s next a hreach hshut h).1) hreach.reachable
      (State.shutDown_of_reachable hreach.reachable hdestroying) schedule
    have hbound := hreach.reachable.countP_le_add Action.isOwn State.remaining 1
      (fun s a next hreach hshut hown h => (hstep s next a hreach hshut h).2.1 hown)
      (fun s a next hreach hshut _ h => (hstep s next a hreach hshut h).2.2) hruns hrun
    omega

/-- The destructor waits for a thread that is in a dispatch call, with another
notification queued. -/
theorem destruction_ends_with_work_left :
    ∃ s : State Unit Unit Unit, s.manager.notificationsQueue.length = 1 ∧
      s.destructor = .joining ∧ s.observerThread.inCall = true ∧
      (s.AtRest → s.Settled ∨ s.InUserCode ∧ s.observerStep.isSome) ∧
      ∀ schedule last, (rideMachine Unit Unit Unit).RunsBy State.Careful s schedule →
        (rideMachine Unit Unit Unit).run s schedule = some last →
          schedule.countP Action.isOwn ≤
            s.remaining + schedule.countP fun action => !action.isOwn := by
  obtain ⟨s, hreach, hcheck⟩ := transition.Machine.exists_reachableBy_of_runBy
    State.Careful (M := rideMachine Unit Unit Unit)
    (s := { dispatcherOwned := fun _ => true, observerOwned := fun _ => true }) ⟨false, _, _, rfl⟩
    ([.run, .subscribe () (some ()) (some ()), .callerStep (), .callerStep (),
      .changeState .requestRide, .changeState .startBoarding] ++ List.replicate 10 .observerStep ++
      [.destructorStep, .destructorStep, .destructorStep])
    (fun s => s.manager.notificationsQueue.length = 1 ∧ s.destructor = .joining ∧
      s.observerThread.inCall = true) (by decide)
  obtain ⟨hqueue, hjoining, hcall⟩ := of_decide_eq_true hcheck
  have hends := State.destruction_ends hreach
  exact ⟨s, hqueue, hjoining, hcall, hends.1, hends.2 (by simp [hjoining])⟩

end spdlogger.ride_state_manager
