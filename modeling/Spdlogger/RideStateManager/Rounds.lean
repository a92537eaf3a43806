import Spdlogger.RideStateManager.Records

namespace spdlogger.ride_state_manager

variable {Dispatcher Observer Tid : Type} [DecidableEq Dispatcher] [DecidableEq Observer]
  [Fintype Tid] [DecidableEq Tid]

/-- Of the entries `start` the loop has passed some, of which those alive are
still there; the rest is untouched. -/
def State.Passed (start : List (ObserverData Dispatcher Observer)) (index : Nat)
    (s : State Dispatcher Observer Tid) : Prop :=
  ∃ passed, start = passed ++ s.manager.observers.drop index ∧
    s.manager.observers.take index = passed.filter s.alive

omit [DecidableEq Tid] in
/-- What the observer thread has copied stays alive, and what has expired stays so. -/
theorem State.Ages.filter_alive {s next : State Dispatcher Observer Tid} (h : s.Ages next)
    {passed : List (ObserverData Dispatcher Observer)}
    (hheld : ∀ entry ∈ passed, s.alive entry → next.alive entry) :
    passed.filter next.alive = passed.filter s.alive := by
  refine List.filter_congr fun entry hentry => ?_
  rw [Bool.eq_iff_iff]
  exact ⟨h.alive, hheld entry hentry⟩

omit [DecidableEq Tid] in
/-- The entries copied are alive. -/
theorem State.alive_of_copied {s : State Dispatcher Observer Tid}
    {entry : ObserverData Dispatcher Observer} (hcopied : entry.pair ∈ s.observerThread.copied) :
    s.alive entry := by
  have hdispatcher : entry.dispatcher ∈ s.observerThread.copied.map Prod.fst :=
    List.mem_map.mpr ⟨entry.pair, hcopied, rfl⟩
  have hobserver : entry.observer ∈ s.observerThread.copied.map Prod.snd :=
    List.mem_map.mpr ⟨entry.pair, hcopied, rfl⟩
  rw [State.alive, Bool.and_eq_true]
  exact ⟨State.dispatcherAlive_of_thread rfl (ObserverPhase.holdsDispatcher_of_copied hdispatcher),
    State.observerAlive_of_thread rfl (ObserverPhase.holdsObserver_of_copied hobserver)⟩

omit [DecidableEq Tid] in
/-- The observer thread holds what it has passed. -/
theorem State.ThreadReads.alive {s : State Dispatcher Observer Tid}
    (h : s.ThreadReads s.observerThread) {notification : NotificationData}
    {healthyObservers : List (Dispatcher × Observer)} {index : Nat}
    {scan : Scan Dispatcher Observer}
    (hphase : s.observerThread = .scanning notification healthyObservers index scan) :
    ∀ entry ∈ s.manager.observers.take index, s.alive entry := by
  rw [hphase] at h
  obtain ⟨hhealthy, -, -⟩ := h
  intro entry hentry
  apply State.alive_of_copied
  rw [hphase, ObserverPhase.copied, hhealthy]
  exact List.mem_map_of_mem hentry

omit [DecidableEq Tid] in
/-- A step that leaves the entries alone keeps what the loop has passed. -/
theorem State.Passed.keep {s next : State Dispatcher Observer Tid}
    {start : List (ObserverData Dispatcher Observer)} {index : Nat} (h : s.Passed start index)
    (hages : s.Ages next) (hobservers : next.manager.observers = s.manager.observers)
    (halive : ∀ entry ∈ next.manager.observers.take index, next.alive entry) :
    next.Passed start index := by
  obtain ⟨passed, hstart, htake⟩ := h
  refine ⟨passed, by rw [hobservers]; exact hstart, ?_⟩
  rw [hages.filter_alive, hobservers, htake]
  intro entry hentry hbefore
  apply halive
  rw [hobservers, htake]
  exact List.mem_filter.mpr ⟨hentry, hbefore⟩

omit [DecidableEq Tid] in
/-- The loop passes an entry that it has copied. -/
theorem State.Passed.copy {s next : State Dispatcher Observer Tid}
    {start : List (ObserverData Dispatcher Observer)} {index : Nat} (h : s.Passed start index)
    (hages : s.Ages next) (hobservers : next.manager.observers = s.manager.observers)
    {entry : ObserverData Dispatcher Observer}
    (hentry : s.manager.observers[index]? = some entry)
    (halive : ∀ entry ∈ next.manager.observers.take (index + 1), next.alive entry) :
    next.Passed start (index + 1) := by
  obtain ⟨passed, hstart, htake⟩ := h
  obtain ⟨hlt, hget⟩ := List.getElem?_eq_some_iff.mp hentry
  have hnow : next.alive entry := by
    apply halive
    rw [hobservers, List.take_add_one, hentry]
    exact List.mem_append_right _ (List.mem_singleton_self entry)
  have hkept : passed.filter next.alive = passed.filter s.alive := by
    refine hages.filter_alive fun other hother hbefore => ?_
    apply halive
    rw [hobservers, List.take_add_one, htake]
    exact List.mem_append_left _ (List.mem_filter.mpr ⟨hother, hbefore⟩)
  refine ⟨passed ++ [entry], ?_, ?_⟩
  · rw [hstart, hobservers, List.drop_eq_getElem_cons hlt, hget, List.append_assoc]
    rfl
  · rw [hobservers, List.take_add_one, htake, hentry, List.filter_append, hkept,
      List.filter_singleton, hnow]
    rfl

omit [DecidableEq Tid] in
/-- The loop passes an entry that it has erased. -/
theorem State.Passed.erase {s next : State Dispatcher Observer Tid}
    {start : List (ObserverData Dispatcher Observer)} {index : Nat} (h : s.Passed start index)
    (hages : s.Ages next)
    (hobservers : next.manager.observers = s.manager.observers.eraseIdx index)
    {entry : ObserverData Dispatcher Observer}
    (hentry : s.manager.observers[index]? = some entry) (hexpired : s.alive entry = false)
    (halive : ∀ entry ∈ next.manager.observers.take index, next.alive entry) :
    next.Passed start index := by
  obtain ⟨passed, hstart, htake⟩ := h
  obtain ⟨hlt, hget⟩ := List.getElem?_eq_some_iff.mp hentry
  have hkeptTake : next.manager.observers.take index = s.manager.observers.take index := by
    rw [hobservers]
    exact List.take_eraseIdx_eq_take_of_le _ _ _ (Nat.le_refl index)
  have hgone : next.alive entry = false := by
    rw [Bool.eq_false_iff] at hexpired ⊢
    exact fun hlater => hexpired (hages.alive hlater)
  have hkept : passed.filter next.alive = passed.filter s.alive := by
    refine hages.filter_alive fun other hother hbefore => ?_
    apply halive
    rw [hkeptTake, htake]
    exact List.mem_filter.mpr ⟨hother, hbefore⟩
  refine ⟨passed ++ [entry], ?_, ?_⟩
  · rw [hstart, List.drop_eq_getElem_cons hlt, hget, hobservers, List.append_assoc]
    rw [List.eraseIdx_eq_take_drop_succ, List.drop_left' (List.length_take_of_le hlt.le)]
    rfl
  · rw [hkeptTake, htake, List.filter_append, hkept, List.filter_singleton, hgone]
    simp

/-- The snapshot of a round: of the entries `start` those still alive are left,
and they are the ones to be notified. -/
structure State.Taken (start : List (ObserverData Dispatcher Observer))
    (notification : NotificationData)
    (earlier : List (NotificationData × List (Dispatcher × Observer)))
    (s : State Dispatcher Observer Tid) : Prop where
  phase : s.observerThread =
    .dispatching notification ((start.filter s.alive).map ObserverData.pair) 0
  observers : s.manager.observers = start.filter s.alive
  snapshots : s.snapshots =
    earlier ++ [(notification, (start.filter s.alive).map ObserverData.pair)]

omit [DecidableEq Tid] in
/-- A step of the loop passes at most one entry, and at the end it has passed all. -/
theorem State.Passed.snapshotStep {s : State Dispatcher Observer Tid}
    {start : List (ObserverData Dispatcher Observer)} {notification : NotificationData}
    {healthyObservers : List (Dispatcher × Observer)} {index : Nat}
    {scan : Scan Dispatcher Observer} (h : s.Passed start index) (hscanned : s.Scanned)
    (hphase : s.observerThread = .scanning notification healthyObservers index scan) :
    let next := s.snapshotStep notification healthyObservers index scan
    (∃ copied later after, next.observerThread = .scanning notification copied later after ∧
        next.Passed start later ∧ next.snapshots = s.snapshots) ∨
      next.Taken start notification s.snapshots := by
  have hages := State.ages_snapshotStep hphase
  have hlater := (hscanned.snapshotStep hphase).1
  have hreads := hscanned.observerThread
  rw [hphase] at hreads
  obtain ⟨hhealthy, hentry, hreads⟩ := hreads
  have hmove := s.snapshotMove notification healthyObservers index scan
  generalize s.snapshotStep notification healthyObservers index scan = next at hages hlater hmove ⊢
  cases hmove with
  | leave hend =>
    obtain ⟨passed, hstart, htake⟩ := h
    rw [List.drop_of_length_le hend, List.append_nil] at hstart
    rw [List.take_of_length_le hend] at htake hhealthy
    subst hstart
    have hkept := hages.filter_alive fun entry (hmem : entry ∈ start) hbefore => by
      apply State.alive_of_copied
      rw [ObserverPhase.copied, hhealthy, htake]
      exact List.mem_map_of_mem (List.mem_filter.mpr ⟨hmem, hbefore⟩)
    rw [← hkept] at htake
    rw [htake] at hhealthy
    refine .inr ⟨?_, htake, ?_⟩
    · rw [← hhealthy]
    · rw [← hhealthy]
  | copy =>
    refine .inl ⟨_, _, _, rfl, h.copy hages rfl hreads.entry_eq ?_, rfl⟩
    exact State.ThreadReads.alive hlater rfl
  | erase _ _ hnone =>
    have hget := List.getElem?_eq_getElem (hentry rfl)
    refine .inl ⟨_, _, _, rfl, h.erase hages rfl hget (hreads.expired hnone hget) ?_, rfl⟩
    exact State.ThreadReads.alive hlater rfl
  | _ => exact .inl ⟨_, _, _, rfl, h.keep hages rfl (State.ThreadReads.alive hlater rfl), rfl⟩

/-- Nobody else gets at `observers_` during the loop. -/
theorem State.Passed.step {s next : State Dispatcher Observer Tid}
    {start : List (ObserverData Dispatcher Observer)} {notification : NotificationData}
    {healthyObservers : List (Dispatcher × Observer)} {index : Nat}
    {scan : Scan Dispatcher Observer} (h : s.Passed start index) (hscanned : s.Scanned)
    (hlocked : s.Locked)
    (hphase : s.observerThread = .scanning notification healthyObservers index scan)
    {action : Action Dispatcher Observer Tid} (hstep : s.step action = some next) :
    (∃ copied later after, next.observerThread = .scanning notification copied later after ∧
        next.Passed start later ∧ next.snapshots = s.snapshots) ∨
      next.Taken start notification s.snapshots := by
  have hages := State.ages_step hstep
  have hlater := (hscanned.step hlocked hstep).observerThread
  have hkeep (hthread : next.observerThread = s.observerThread)
      (hobservers : next.manager.observers = s.manager.observers)
      (hsnapshots : next.snapshots = s.snapshots) :
      ∃ copied later after, next.observerThread = .scanning notification copied later after ∧
        next.Passed start later ∧ next.snapshots = s.snapshots := by
    rw [hphase] at hthread
    exact ⟨_, _, _, hthread, h.keep hages hobservers (hlater.alive hthread), hsnapshots⟩
  cases State.turn_of_step hstep with
  | elsewhere hframe _ _ hthread =>
    obtain hsame | ⟨hresting, _⟩ := hthread
    · exact .inl (hkeep hsame hframe.observers hframe.snapshots)
    · rw [hphase] at hresting
      cases hresting
  | owner hframe hthread => exact .inl (hkeep hthread hframe.observers hframe.snapshots)
  | call thread phase _ _ _ _ hnext => exact .inl (hkeep (hnext ▸ rfl) (hnext ▸ rfl) (hnext ▸ rfl))
  | callerStep thread hcaller =>
    have houtside : (s.callers thread).scans = false :=
      hlocked.callers_outside (by rw [hphase]; rfl)
    obtain ⟨_, _, _, hnext⟩ | hloop | hloop := State.callerStep_cases hcaller
    · obtain rfl | ⟨phase, rfl, _⟩ := hnext <;> exact .inl (hkeep rfl rfl rfl)
    · obtain ⟨_, _, _, _, hinside, _⟩ := hloop
      rw [hinside] at houtside
      cases houtside
    · obtain ⟨_, _, _, hinside, _⟩ := hloop
      rw [hinside] at houtside
      cases houtside
  | scan _ _ _ _ hscan hnext =>
    rw [hphase] at hscan
    cases hscan
    subst hnext
    exact h.snapshotStep hscanned hphase
  | lock _ hother | dispatch _ _ _ _ hother | resume _ _ _ hother | finish _ _ _ hother =>
    rw [hphase] at hother
    cases hother

/-- The observer thread is in the loop that takes the snapshot, or has taken it. -/
def State.InRound (start : List (ObserverData Dispatcher Observer)) (notification : NotificationData)
    (earlier : List (NotificationData × List (Dispatcher × Observer)))
    (s : State Dispatcher Observer Tid) : Prop :=
  (∃ copied index scan, s.observerThread = .scanning notification copied index scan ∧
    s.Passed start index ∧ s.snapshots = earlier) ∨ s.Taken start notification earlier

/-- A run of the loop from its begin to its end takes the snapshot. -/
theorem State.taken_of_run {s last : State Dispatcher Observer Tid}
    (hreach : (rideMachine Dispatcher Observer Tid).Reachable s) {notification : NotificationData}
    (hphase : s.observerThread = .scanning notification [] 0 .lockingDispatcher)
    {schedule : List (Action Dispatcher Observer Tid)}
    (hinside : (rideMachine Dispatcher Observer Tid).RunsBy
      (fun s _ => s.observerThread.scans) s schedule)
    (hrun : (rideMachine Dispatcher Observer Tid).run s schedule = some last)
    (houtside : last.observerThread.scans = false) :
    last.Taken s.manager.observers notification s.snapshots := by
  have hround : last.InRound s.manager.observers notification s.snapshots := by
    refine hreach.preserved (fun before action next hs hround hscans hstep => ?_) ?_ hinside hrun
    · obtain ⟨copied, index, scan, hthread, hpassed, hsnapshots⟩ | htaken := hround
      · rw [← hsnapshots]
        exact hpassed.step (State.scanned_of_reachable hs) (State.locked_of_reachable hs) hthread hstep
      · rw [htaken.phase] at hscans
        cases hscans
    · exact .inl ⟨[], 0, .lockingDispatcher, hphase, ⟨[], by simp, by simp⟩, rfl⟩
  obtain ⟨_, _, _, hthread, _⟩ | htaken := hround
  · rw [hthread] at houtside
    cases houtside
  · exact htaken

/-- The dispatch loop takes no snapshots. -/
theorem State.snapshots_of_dispatching {s last : State Dispatcher Observer Tid}
    (hreach : (rideMachine Dispatcher Observer Tid).Reachable s)
    (hphase : s.observerThread.scans = false) {schedule : List (Action Dispatcher Observer Tid)}
    (hinside : (rideMachine Dispatcher Observer Tid).RunsBy
      (fun s _ => s.observerThread.resting = false) s schedule)
    (hrun : (rideMachine Dispatcher Observer Tid).run s schedule = some last) :
    last.observerThread.scans = false ∧ last.snapshots = s.snapshots := by
  refine hreach.preserved (I := fun s' => s'.observerThread.scans = false ∧
    s'.snapshots = s.snapshots) (fun before action next hs hround hbusy hstep => ?_)
    ⟨hphase, rfl⟩ hinside hrun
  obtain ⟨hscans, hsnapshots⟩ := hround
  cases State.turn_of_step hstep with
  | elsewhere hframe _ _ hthread =>
    obtain hsame | ⟨hresting, _⟩ := hthread
    · rw [hsame, hframe.snapshots]
      exact ⟨hscans, hsnapshots⟩
    · rw [hresting] at hbusy
      cases hbusy
  | owner hframe hthread =>
    rw [hthread, hframe.snapshots]
    exact ⟨hscans, hsnapshots⟩
  | callerStep thread hcaller =>
    have hframe := State.callFrame_callerStep hcaller
    rw [hframe.observerThread, hframe.snapshots]
    exact ⟨hscans, hsnapshots⟩
  | call _ _ _ _ _ _ hnext =>
    subst hnext
    exact ⟨hscans, hsnapshots⟩
  | lock _ hother =>
    rw [hother] at hbusy
    cases hbusy
  | scan _ _ _ _ hother =>
    rw [hother] at hscans
    cases hscans
  | dispatch _ _ _ _ _ _ hnext | resume _ _ _ _ hnext | finish _ _ _ _ _ hnext =>
    subst hnext
    exact ⟨rfl, hsnapshots⟩

end spdlogger.ride_state_manager
