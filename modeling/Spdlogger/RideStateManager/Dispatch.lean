import Spdlogger.RideStateManager.History

namespace spdlogger.ride_state_manager

variable {Dispatcher Observer Tid : Type} [DecidableEq Dispatcher] [DecidableEq Observer]
  [Fintype Tid] [DecidableEq Tid]

/-- The dispatch calls a list of snapshots asks for, in order. -/
def dispatchesOf (snapshots : List (NotificationData × List (Dispatcher × Observer))) :
    List (NotificationData × (Dispatcher × Observer)) :=
  snapshots.flatMap fun snapshot => snapshot.2.map fun pair => (snapshot.1, pair)

omit [DecidableEq Dispatcher] [DecidableEq Observer] in
/-- One more snapshot asks for its own calls, behind the others. -/
theorem dispatchesOf_append (snapshots : List (NotificationData × List (Dispatcher × Observer)))
    (notification : NotificationData) (healthyObservers : List (Dispatcher × Observer)) :
    dispatchesOf (snapshots ++ [(notification, healthyObservers)]) =
      dispatchesOf snapshots ++ healthyObservers.map fun pair => (notification, pair) := by
  simp [dispatchesOf]

/-- The dispatch of one notification has reached the first `count` of its observers. -/
def State.Dispatching (s : State Dispatcher Observer Tid) (notification : NotificationData)
    (healthyObservers : List (Dispatcher × Observer)) (count : Nat) : Prop :=
  ∃ earlier, s.snapshots = earlier ++ [(notification, healthyObservers)] ∧
    s.dispatched = dispatchesOf earlier ++
      (healthyObservers.take count).map fun pair => (notification, pair)

/-- Every popped notification has its snapshot, and every snapshot its dispatch
calls, up to the notification the observer thread is working on. -/
def State.Offers (s : State Dispatcher Observer Tid) : Prop :=
  match s.observerThread with
  | .popped notification | .scanning notification _ _ _ =>
    s.snapshots.map Prod.fst ++ [notification] = s.popped ∧ s.dispatched = dispatchesOf s.snapshots
  | .dispatching notification healthyObservers index =>
    s.snapshots.map Prod.fst = s.popped ∧ s.Dispatching notification healthyObservers index
  | .inDispatch notification healthyObservers index =>
    s.snapshots.map Prod.fst = s.popped ∧ s.Dispatching notification healthyObservers (index + 1)
  | .notStarted | .testingStop | .acquiring | .blocked | .exited =>
    s.snapshots.map Prod.fst = s.popped ∧ s.dispatched = dispatchesOf s.snapshots

omit [DecidableEq Dispatcher] [DecidableEq Observer] [Fintype Tid] [DecidableEq Tid] in
/-- A step that leaves the records and the observer thread alone keeps the account. -/
theorem State.Offers.frame {s next : State Dispatcher Observer Tid} (h : s.Offers)
    (hthread : next.observerThread = s.observerThread) (hpopped : next.popped = s.popped)
    (hsnapshots : next.snapshots = s.snapshots) (hdispatched : next.dispatched = s.dispatched) :
    next.Offers := by
  simpa only [State.Offers, State.Dispatching, hthread, hpopped, hsnapshots, hdispatched] using h

omit [DecidableEq Dispatcher] [DecidableEq Observer] [Fintype Tid] [DecidableEq Tid] in
/-- A wake-up moves the observer thread between two phases without open work. -/
theorem State.Offers.notified {s next : State Dispatcher Observer Tid} (h : s.Offers)
    (hthread : next.observerThread = s.observerThread.notified) (hpopped : next.popped = s.popped)
    (hsnapshots : next.snapshots = s.snapshots) (hdispatched : next.dispatched = s.dispatched) :
    next.Offers := by
  by_cases hphase : s.observerThread = .blocked
  · rw [hphase, ObserverPhase.notified] at hthread
    simpa only [State.Offers, hphase, hthread, hpopped, hsnapshots, hdispatched] using h
  · rw [ObserverPhase.notified_of_ne hphase] at hthread
    exact h.frame hthread hpopped hsnapshots hdispatched

omit [DecidableEq Tid] in
/-- A step of the observer thread's loop keeps the account. -/
theorem State.Offers.snapshotStep {s : State Dispatcher Observer Tid} (h : s.Offers)
    {notification : NotificationData} {healthyObservers : List (Dispatcher × Observer)}
    {index : Nat} {scan : Scan Dispatcher Observer}
    (hphase : s.observerThread = .scanning notification healthyObservers index scan) :
    (s.snapshotStep notification healthyObservers index scan).Offers := by
  simp only [State.Offers, hphase] at h
  obtain ⟨hpopped, hdispatched⟩ := h
  have hmove := s.snapshotMove notification healthyObservers index scan
  generalize s.snapshotStep notification healthyObservers index scan = next at hmove
  cases hmove with
  | leave =>
    refine ⟨?_, s.snapshots, rfl, ?_⟩
    · simpa using hpopped
    · simpa using hdispatched
  | _ => exact ⟨hpopped, hdispatched⟩

omit [DecidableEq Tid] in
/-- A step of the observer thread keeps the account. -/
theorem State.Offers.observerStep {s next : State Dispatcher Observer Tid} (h : s.Offers)
    (hstep : s.observerStep = some next) : next.Offers := by
  cases State.observerMove_of_step hstep with
  | stop hphase | goOn hphase | sleep hphase | leave hphase | lock _ hphase | resume _ _ _ hphase =>
    simp only [State.Offers, hphase] at h
    exact h
  | pop notification rest hphase =>
    simp only [State.Offers, hphase] at h
    obtain ⟨hpopped, hdispatched⟩ := h
    exact ⟨congrArg (· ++ [notification]) hpopped, hdispatched⟩
  | scan notification healthyObservers index scan hphase => exact h.snapshotStep hphase
  | dispatch notification healthyObservers index pair hphase hpair =>
    simp only [State.Offers, hphase] at h
    obtain ⟨hpopped, earlier, hsnapshots, hdispatched⟩ := h
    refine ⟨hpopped, earlier, hsnapshots, ?_⟩
    rw [hdispatched, List.take_add_one, hpair, List.map_append, List.append_assoc]
    rfl
  | finish notification healthyObservers index hphase hend =>
    simp only [State.Offers, hphase] at h
    obtain ⟨hpopped, earlier, hsnapshots, hdispatched⟩ := h
    refine ⟨hpopped, ?_⟩
    have hall : healthyObservers.length ≤ index := List.getElem?_eq_none_iff.mp hend
    rw [hdispatched, hsnapshots, dispatchesOf_append, List.take_of_length_le hall]

/-- Each step keeps the account of the snapshots and the calls. -/
theorem State.Offers.step {s next : State Dispatcher Observer Tid} (h : s.Offers)
    {action : Action Dispatcher Observer Tid} (hstep : s.step action = some next) :
    next.Offers := by
  cases State.move_of_step hstep with
  | observerStep hmove => exact h.observerStep hmove
  | changeState hmove =>
    obtain ⟨_, ⟨_, rfl⟩ | ⟨_, rfl⟩⟩ := State.changeState_cases hmove
    · exact h.notified rfl rfl rfl rfl
    · exact h
  | destructorStep hmove =>
    obtain ⟨_, _, rfl⟩ | ⟨_, rfl⟩ | ⟨_, rfl⟩ | ⟨_, _, rfl⟩ := State.destructorStep_cases hmove
    · exact h
    · exact h.notified rfl rfl rfl rfl
    · exact h
    · exact h
  | setStop hnext => exact h.frame (hnext ▸ rfl) (hnext ▸ rfl) (hnext ▸ rfl) (hnext ▸ rfl)
  | run hphase _ hnext =>
    subst hnext
    simpa only [State.Offers, hphase] using h
  | spuriousWake hphase hnext =>
    subst hnext
    simpa only [State.Offers, hphase] using h
  | other _ hframe =>
    exact h.frame hframe.observerThread hframe.popped hframe.snapshots hframe.dispatched

/-- The account of the snapshots and the calls holds in every reachable state. -/
theorem State.offers_of_reachable {s : State Dispatcher Observer Tid}
    (hreach : (rideMachine Dispatcher Observer Tid).Reachable s) : s.Offers := by
  refine transition.Machine.Reachable.invariant ?_ ?_ hreach
  · rintro s ⟨stop, dispatcherOwned, observerOwned, rfl⟩
    exact ⟨rfl, rfl⟩
  · exact fun s action next hoffers hstep => hoffers.step hstep

end spdlogger.ride_state_manager
