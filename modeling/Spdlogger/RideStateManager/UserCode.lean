import Spdlogger.RideStateManager.Backed

namespace spdlogger.ride_state_manager

variable {Dispatcher Observer Tid : Type} [DecidableEq Dispatcher] [DecidableEq Observer]
  [Fintype Tid] [DecidableEq Tid]

/-- The observer thread is inside a call of `dispatch`. -/
def ObserverPhase.inCall {Dispatcher Observer : Type} : ObserverPhase Dispatcher Observer → Bool
  | .inDispatch _ _ _ => true
  | _ => false

/-- The thread of a step has `observersMutex_` or `notificationsMutex_` before
or after it, or the step is a critical section as a whole. -/
inductive State.UnderLock (s next : State Dispatcher Observer Tid) :
    Action Dispatcher Observer Tid → Prop where
  | observerThread (hlock : s.observersMutex = some .observerThread ∨
      next.observersMutex = some .observerThread) : UnderLock s next .observerStep
  | wait (hphase : s.observerThread = .acquiring) : UnderLock s next .observerStep
  | caller (thread : Tid) : UnderLock s next (.callerStep thread)
  | changeState (call : StateChange) : UnderLock s next (.changeState call)
  | destructor (hphase : s.destructor = .alive) : UnderLock s next .destructorStep

/-- A step neither executes a part of a dispatch call nor destroys an object. The
arguments of a call that returns are released after the locks. -/
structure State.NoUserCode (s next : State Dispatcher Observer Tid)
    (action : Action Dispatcher Observer Tid) : Prop where
  dispatch : action = .observerStep →
    s.observerThread.inCall = false ∧ next.observerThread.inCall = false
  objects : ∀ object, s.lives object → next.lives object ∨
    ∃ thread, action = .callerStep thread ∧ s.ReturnedWith next thread object

/-- Whoever gives up references outside the locks leaves every reference that a
loop is about to drop with another one beside it. -/
def State.Careful (s : State Dispatcher Observer Tid) (action : Action Dispatcher Observer Tid) :
    Prop :=
  s.letsGo action → ∀ next ∈ s.step action, next.Backed

instance [Fintype Dispatcher] [Fintype Observer] (s : State Dispatcher Observer Tid)
    (action : Action Dispatcher Observer Tid) : Decidable (s.Careful action) :=
  inferInstanceAs (Decidable (s.letsGo action = true → ∀ next ∈ s.step action, next.Backed))

/-- In a careful run every reference is backed. -/
theorem State.backed_of_reachableBy {s : State Dispatcher Observer Tid}
    (hreach : (rideMachine Dispatcher Observer Tid).ReachableBy State.Careful s) : s.Backed := by
  refine transition.Machine.ReachableBy.invariant (I := State.Backed) ?_ ?_ hreach
  · rintro s ⟨stop, dispatcherOwned, observerOwned, rfl⟩ object hdropped
    obtain ⟨_, _, _, _, hphase, _⟩ | ⟨thread, href⟩ := State.drops_iff.mp hdropped
    · cases hphase
    · cases href
  · intro s action next hs hbacked hcareful hstep
    cases hkeeps : s.letsGo action with
    | false => exact (hbacked.keeps (State.locked_of_reachable hs.reachable) hkeeps hstep).1
    | true => exact hcareful hkeeps next hstep

/-- A step of the observer thread into its loop, in it or out of it. -/
theorem State.observerStep_of_scans {s next : State Dispatcher Observer Tid}
    (hscans : s.observerThread.scans ∨ next.observerThread.scans)
    (hstep : s.observerStep = some next) :
    s.letsGo .observerStep = false ∧ s.observerThread.inCall = false ∧
      next.observerThread.inCall = false := by
  have hsame (hthread : next.observerThread = s.observerThread) : s.letsGo .observerStep = false ∧
      s.observerThread.inCall = false ∧ next.observerThread.inCall = false := by
    rw [hthread, or_self] at hscans
    rw [hthread]
    cases hphase : s.observerThread with
    | scanning => exact ⟨by simp [State.letsGo, hphase], rfl, rfl⟩
    | _ =>
      rw [hphase] at hscans
      cases hscans
  cases State.turn_of_observerStep hstep with
  | elsewhere _ _ _ hthread =>
    obtain hthread | ⟨hbefore, hafter⟩ := hthread
    · exact hsame hthread
    · rw [ObserverPhase.scans_of_resting hbefore, ObserverPhase.scans_of_resting hafter] at hscans
      simp at hscans
  | owner _ hthread => exact hsame hthread
  | call _ _ _ _ _ _ hnext => exact hsame (hnext ▸ rfl)
  | lock notification hphase _ hnext =>
    subst hnext
    exact ⟨by simp [State.letsGo, hphase], by rw [hphase]; rfl, rfl⟩
  | scan notification healthyObservers index scan hphase hnext =>
    subst hnext
    refine ⟨by simp [State.letsGo, hphase], by rw [hphase]; rfl, ?_⟩
    obtain ⟨_, ⟨_, _, _, hthread, _⟩ | hthread⟩ :=
      s.locks_snapshotStep notification healthyObservers index scan
    · rw [hthread]
      rfl
    · rw [hthread]
      rfl
  | dispatch _ _ _ _ hphase _ hnext | resume _ _ _ hphase hnext | finish _ _ _ hphase _ hnext =>
    subst hnext
    rw [hphase] at hscans
    simp [ObserverPhase.scans] at hscans

/-- A step under a lock gives up no references outside. -/
theorem State.UnderLock.keeps {s next : State Dispatcher Observer Tid} (hlocked : s.Locked)
    (hnext : next.Locked) {action : Action Dispatcher Observer Tid}
    (h : s.UnderLock next action) (hstep : s.step action = some next) :
    s.letsGo action = false ∧ (action = .observerStep →
      s.observerThread.inCall = false ∧ next.observerThread.inCall = false) := by
  cases h with
  | caller => exact ⟨rfl, by simp⟩
  | changeState => exact ⟨rfl, by simp⟩
  | destructor => exact ⟨rfl, by simp⟩
  | wait hphase =>
    refine ⟨by simp [State.letsGo, hphase], fun _ => ⟨by rw [hphase]; rfl, ?_⟩⟩
    obtain ⟨_, hcases⟩ := State.acquiring_cases hphase hstep
    obtain ⟨_, _, rfl⟩ | ⟨_, _, rfl⟩ | ⟨_, _, _, rfl⟩ := hcases <;> rfl
  | observerThread hlock =>
    obtain ⟨hkeeps, hcall⟩ := State.observerStep_of_scans
      (hlock.imp (hlocked.observers .observerThread).mpr (hnext.observers .observerThread).mpr) hstep
    exact ⟨hkeeps, fun _ => hcall⟩

/-- A step that gives up no reference outside the locks, and is no part of a dispatch
call, runs no user code. -/
theorem State.noUserCode_of_keeps {s next : State Dispatcher Observer Tid}
    (hreach : (rideMachine Dispatcher Observer Tid).ReachableBy State.Careful s)
    {action : Action Dispatcher Observer Tid} (hkeeps : s.letsGo action = false)
    (hcall : action = .observerStep →
      s.observerThread.inCall = false ∧ next.observerThread.inCall = false)
    (hstep : s.step action = some next) : s.NoUserCode next action :=
  ⟨hcall, ((State.backed_of_reachableBy hreach).keeps
    (State.locked_of_reachable hreach.reachable) hkeeps hstep).2⟩

/-- No user code under a lock. As long as whoever gives up references outside
the locks is careful, no step that is made under `observersMutex_` or
`notificationsMutex_` executes a dispatch call or destroys an object. -/
theorem State.no_user_code_under_lock {s : State Dispatcher Observer Tid}
    (hreach : (rideMachine Dispatcher Observer Tid).ReachableBy State.Careful s)
    {action : Action Dispatcher Observer Tid} {next : State Dispatcher Observer Tid}
    (hstep : s.step action = some next) (hlock : s.UnderLock next action) :
    s.NoUserCode next action := by
  have hlocked := State.locked_of_reachable hreach.reachable
  obtain ⟨hkeeps, hcall⟩ := hlock.keeps hlocked (hlocked.step hstep) hstep
  exact State.noUserCode_of_keeps hreach hkeeps hcall hstep

/-- A dispatcher goes before the observer thread takes its lock; the observer it
has then locked alone is still owned when the loop drops it. -/
theorem no_user_code_under_lock_expired_dispatcher :
    ∃ s next : State Unit Unit Unit, s.observerThread =
        .scanning ⟨.idle, .requested⟩ [] 0 (.releasingObserver none (some ()) false) ∧
      s.dispatcherAlive () = false ∧ s.step .observerStep = some next ∧
      s.NoUserCode next .observerStep := by
  obtain ⟨s, hreach, hcheck⟩ := transition.Machine.exists_reachableBy_of_runBy
    State.Careful (M := rideMachine Unit Unit Unit)
    (s := { dispatcherOwned := fun _ => true, observerOwned := fun _ => true }) ⟨false, _, _, rfl⟩
    ([.run, .subscribe () (some ()) (some ()), .callerStep (), .callerStep (),
      .changeState .requestRide, .observerStep, .observerStep, .releaseDispatcher ()] ++
      List.replicate 4 .observerStep)
    (fun s => decide (s.observerThread =
        .scanning ⟨.idle, .requested⟩ [] 0 (.releasingObserver none (some ()) false) ∧
      s.dispatcherAlive () = false ∧ s.observersMutex = some .observerThread) &&
      (s.step .observerStep).isSome)
    (by decide)
  rw [Bool.and_eq_true, decide_eq_true_eq] at hcheck
  obtain ⟨⟨hphase, hexpired, hlock⟩, hstep⟩ := hcheck
  obtain ⟨next, hstep⟩ := Option.isSome_iff_exists.mp hstep
  exact ⟨s, next, hphase, hexpired, hstep,
    State.no_user_code_under_lock hreach hstep (.observerThread (.inl hlock))⟩

/-- If the owner of that observer lets go of it first, its destructor runs while
the observer thread has `observersMutex_`. -/
theorem exists_destroyed_under_lock :
    ∃ s next : State Unit Unit Unit, (rideMachine Unit Unit Unit).Reachable s ∧
      s.step .observerStep = some next ∧ s.observersMutex = some .observerThread ∧
      next.observersMutex = some .observerThread ∧ s.observerAlive () = true ∧
      next.observerAlive () = false ∧ s.UnderLock next .observerStep ∧
      ¬ s.NoUserCode next .observerStep := by
  obtain ⟨s, hreach, hcheck⟩ := transition.Machine.exists_reachable_of_run
    (M := rideMachine Unit Unit Unit)
    (s := { dispatcherOwned := fun _ => true, observerOwned := fun _ => true }) ⟨false, _, _, rfl⟩
    ([.run, .subscribe () (some ()) (some ()), .callerStep (), .callerStep (),
      .changeState .requestRide, .observerStep, .observerStep, .releaseDispatcher ()] ++
      List.replicate 3 .observerStep ++ [.releaseObserver (), .observerStep])
    (fun s => decide (s.observersMutex = some .observerThread ∧ s.observerAlive () = true) &&
      (s.step .observerStep).any fun next : State Unit Unit Unit =>
        decide (next.observersMutex = some .observerThread ∧ next.observerAlive () = false))
    (by decide)
  rw [Bool.and_eq_true, decide_eq_true_eq] at hcheck
  obtain ⟨⟨hlock, halive⟩, hcheck⟩ := hcheck
  obtain ⟨next, hstep, hcheck⟩ := (Option.any_eq_true _ _).mp hcheck
  obtain ⟨hnextLock, hgone⟩ := of_decide_eq_true hcheck
  refine ⟨s, next, hreach, hstep, hlock, hnextLock, halive, hgone, .observerThread (.inl hlock), ?_⟩
  intro hquiet
  obtain hlives | ⟨_, hcall, _⟩ := hquiet.objects (.observer ()) halive
  · rw [State.lives, hgone] at hlives
    cases hlives
  · cases hcall

end spdlogger.ride_state_manager
