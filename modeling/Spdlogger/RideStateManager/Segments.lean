import Spdlogger.RideStateManager.Callbacks
import Spdlogger.RideStateManager.Rounds

namespace spdlogger.ride_state_manager

section Received

variable {Dispatcher Observer : Type}

/-- The calls of more snapshots come behind the others. -/
theorem dispatchesOf_append_append
    (earlier new : List (NotificationData × List (Dispatcher × Observer))) :
    dispatchesOf (earlier ++ new) = dispatchesOf earlier ++ dispatchesOf new :=
  List.flatMap_append

/-- The dispatch calls made of the snapshots `new` that came after `earlier`. -/
def dispatchedFrom (earlier new : List (NotificationData × List (Dispatcher × Observer)))
    (dispatched : List (NotificationData × (Dispatcher × Observer))) :
    List (NotificationData × (Dispatcher × Observer)) :=
  (dispatched.drop (dispatchesOf earlier).length).take (dispatchesOf new).length

/-- The calls made of later snapshots begin with those the new ones ask for. -/
theorem dispatchedFrom_prefix
    {earlier new later : List (NotificationData × List (Dispatcher × Observer))}
    {dispatched : List (NotificationData × (Dispatcher × Observer))}
    (hcalls : dispatched <+: dispatchesOf (earlier ++ new ++ later)) :
    dispatchedFrom earlier new dispatched <+: dispatchesOf new := by
  rw [dispatchesOf_append_append, dispatchesOf_append_append, List.append_assoc] at hcalls
  have hdrop := hcalls.drop (dispatchesOf earlier).length
  rw [List.drop_left] at hdrop
  have htake := hdrop.take (dispatchesOf new).length
  rw [List.take_left] at htake
  exact htake

variable [DecidableEq Dispatcher] [DecidableEq Observer]

/-- The notifications that calls bring to one pair, in order. -/
def received (pair : Dispatcher × Observer)
    (calls : List (NotificationData × (Dispatcher × Observer))) : List NotificationData :=
  (calls.filter fun call => call.2 = pair).map Prod.fst

/-- Of snapshots with the pair once in each, it receives each notification once. -/
theorem received_dispatchesOf {pair : Dispatcher × Observer}
    {snapshots : List (NotificationData × List (Dispatcher × Observer))}
    (honce : ∀ snapshot ∈ snapshots, snapshot.2.count pair = 1) :
    received pair (dispatchesOf snapshots) = snapshots.map Prod.fst := by
  induction snapshots with
  | nil => rfl
  | cons snapshot rest ih =>
    have hrest := ih fun other hother => honce other (List.mem_cons_of_mem _ hother)
    have hfirst : received pair (snapshot.2.map fun other => (snapshot.1, other)) = [snapshot.1] := by
      rw [received, List.filter_map, List.map_map]
      change (snapshot.2.filter fun other => other = pair).map (fun _ => snapshot.1) = _
      rw [List.filter_eq, honce snapshot List.mem_cons_self]
      rfl
    change received pair ((snapshot.2.map fun other => (snapshot.1, other)) ++ dispatchesOf rest) = _
    rw [received, List.filter_append, List.map_append, List.map_cons]
    exact congrArg₂ (· ++ ·) hfirst hrest

end Received

variable {Dispatcher Observer Tid : Type} [DecidableEq Dispatcher] [DecidableEq Observer]
  [Fintype Tid] [DecidableEq Tid]

/-- An entry is subscribed, and every snapshot after `earlier` has its pair once. -/
structure State.Subscribed (entry : ObserverData Dispatcher Observer)
    (earlier : List (NotificationData × List (Dispatcher × Observer)))
    (s : State Dispatcher Observer Tid) : Prop where
  mem : entry ∈ s.manager.observers
  snapshots : ∃ new, s.snapshots = earlier ++ new ∧
    ∀ snapshot ∈ new, snapshot.2.count entry.pair = 1

/-- An entry is its pair. -/
theorem ObserverData.pair_injective {Dispatcher Observer : Type} :
    Function.Injective fun entry : ObserverData Dispatcher Observer => entry.pair := by
  intro first second hpair
  cases first
  cases second
  simpa [ObserverData.pair] using hpair

/-- A step keeps an entry subscribed, unless it unsubscribes it or an object of it dies. -/
theorem State.Subscribed.step {s next : State Dispatcher Observer Tid}
    {entry : ObserverData Dispatcher Observer}
    {earlier : List (NotificationData × List (Dispatcher × Observer))}
    (h : s.Subscribed entry earlier) (hoffers : s.Offers) (hscanned : s.Scanned)
    (halive : s.alive entry) {action : Action Dispatcher Observer Tid}
    (hsubscribed : s.unsubscribedBy action ≠ some entry) (hstep : s.step action = some next) :
    next.Subscribed entry earlier := by
  have hmem := (hscanned.edit_of_step hstep).mem h.mem hsubscribed halive
  obtain ⟨new, hsnapshots, honce⟩ := h.snapshots
  cases State.record_of_step hoffers hscanned hstep with
  | neither hsame | dispatch _ _ _ _ _ _ hsame =>
    exact ⟨hmem, new, hsame.trans hsnapshots, honce⟩
  | snapshot notification index _ hnext =>
    refine ⟨hmem, new ++ [(notification, s.manager.observers.map ObserverData.pair)], ?_, ?_⟩
    · rw [hnext, hsnapshots, List.append_assoc]
    · intro snapshot hsnapshot
      obtain hbefore | hnow := List.mem_append.mp hsnapshot
      · exact honce snapshot hbefore
      · rw [List.mem_singleton.mp hnow]
        have hdistinct := hscanned.distinct.map ObserverData.pair_injective
        exact List.count_eq_one_of_mem hdistinct (List.mem_map_of_mem h.mem)

omit [DecidableEq Dispatcher] [DecidableEq Observer] [Fintype Tid] [DecidableEq Tid] in
/-- The calls made are the first of those asked for. -/
theorem State.Offers.calls_prefix {s : State Dispatcher Observer Tid} (h : s.Offers) :
    s.dispatched <+: dispatchesOf s.snapshots := by
  have hpart {notification : NotificationData} {healthyObservers : List (Dispatcher × Observer)}
      {count : Nat} (hdispatching : s.Dispatching notification healthyObservers count) :
      s.dispatched <+: dispatchesOf s.snapshots := by
    obtain ⟨earlier, hsnapshots, hdispatched⟩ := hdispatching
    rw [hsnapshots, hdispatched, dispatchesOf_append]
    exact (List.prefix_append_right_inj _).mpr ((List.take_prefix _ _).map _)
  cases hphase : s.observerThread with
  | dispatching | inDispatch =>
    simp only [State.Offers, hphase] at h
    exact hpart h.2
  | _ =>
    simp only [State.Offers, hphase] at h
    rw [h.2]

omit [DecidableEq Dispatcher] [DecidableEq Observer] [Fintype Tid] [DecidableEq Tid] in
/-- The snapshots taken are of the first notifications popped. -/
theorem State.Offers.snapshots_prefix {s : State Dispatcher Observer Tid} (h : s.Offers) :
    s.snapshots.map Prod.fst <+: s.popped := by
  cases hphase : s.observerThread with
  | popped notification | scanning notification =>
    simp only [State.Offers, hphase] at h
    rw [← h.1]
    exact List.prefix_append _ _
  | _ =>
    simp only [State.Offers, hphase] at h
    rw [h.1]

/-- A run only adds snapshots. -/
theorem State.snapshots_prefix_of_run {s last : State Dispatcher Observer Tid}
    (hreach : (rideMachine Dispatcher Observer Tid).Reachable s)
    {schedule : List (Action Dispatcher Observer Tid)}
    (hrun : (rideMachine Dispatcher Observer Tid).run s schedule = some last) :
    s.snapshots <+: last.snapshots := by
  refine hreach.trapped (I := fun next => s.snapshots <+: next.snapshots)
    (fun before action next hs hearlier hstep => ?_) (List.prefix_refl _) hrun
  cases State.record_of_step (State.offers_of_reachable hs) (State.scanned_of_reachable hs) hstep with
  | neither hsame | dispatch _ _ _ _ _ _ hsame =>
    rw [hsame]
    exact hearlier
  | snapshot _ _ _ hnext =>
    rw [hnext]
    exact hearlier.trans (List.prefix_append _ _)

/-- What a pair has received of the snapshots `new`, taken after `earlier`, is a
gap-free part of the accepted transitions: it begins where the snapshots begin,
each notification starts from the state where the one before it ended, and with
the last of their calls it is complete. -/
structure State.GapFree (pair : Dispatcher × Observer)
    (earlier new : List (NotificationData × List (Dispatcher × Observer)))
    (s : State Dispatcher Observer Tid) : Prop where
  snapshots : earlier ++ new <+: s.snapshots
  calls : s.dispatched <+: dispatchesOf s.snapshots
  segment : earlier.map Prod.fst ++ received pair (dispatchedFrom earlier new s.dispatched) <+:
    s.accepted
  linked : (received pair (dispatchedFrom earlier new s.dispatched)).IsChain
    fun earlier later => later.previousState = earlier.currentState
  complete : (dispatchesOf (earlier ++ new)).length ≤ s.dispatched.length →
    received pair (dispatchedFrom earlier new s.dispatched) = new.map Prod.fst

/-- A pair that is once in each of the snapshots has received a gap-free part. -/
theorem State.gapFree_of_snapshots {s : State Dispatcher Observer Tid}
    (hreach : (rideMachine Dispatcher Observer Tid).Reachable s) {pair : Dispatcher × Observer}
    {earlier new : List (NotificationData × List (Dispatcher × Observer))}
    (hsnapshots : earlier ++ new <+: s.snapshots)
    (honce : ∀ snapshot ∈ new, snapshot.2.count pair = 1) : s.GapFree pair earlier new := by
  have hoffers := State.offers_of_reachable hreach
  have hhistory := State.rideHistory_of_reachable hreach
  have hcalls := hoffers.calls_prefix
  obtain ⟨later, hlater⟩ := hsnapshots
  have hfrom : dispatchedFrom earlier new s.dispatched <+: dispatchesOf new :=
    dispatchedFrom_prefix (hlater ▸ hcalls)
  have hreceived : received pair (dispatchedFrom earlier new s.dispatched) <+: new.map Prod.fst := by
    rw [← received_dispatchesOf honce]
    exact (hfrom.filter _).map _
  have hsegment : earlier.map Prod.fst ++ received pair (dispatchedFrom earlier new s.dispatched) <+:
      s.accepted := by
    calc earlier.map Prod.fst ++ received pair (dispatchedFrom earlier new s.dispatched)
        <+: earlier.map Prod.fst ++ new.map Prod.fst := (List.prefix_append_right_inj _).mpr hreceived
      _ = (earlier ++ new).map Prod.fst := List.map_append.symm
      _ <+: s.snapshots.map Prod.fst := List.IsPrefix.map _ ⟨later, hlater⟩
      _ <+: s.popped := hoffers.snapshots_prefix
      _ <+: s.accepted := by
        rw [← hhistory.accepted_eq]
        exact List.prefix_append _ _
  refine ⟨⟨later, hlater⟩, hcalls, hsegment, ?_, fun hall => ?_⟩
  · exact hhistory.history.linked.infix ((List.suffix_append _ _).isInfix.trans hsegment.isInfix)
  · have hlength : (dispatchesOf new).length ≤ (dispatchedFrom earlier new s.dispatched).length := by
      rw [dispatchesOf_append_append, List.length_append] at hall
      rw [dispatchedFrom, List.length_take, List.length_drop]
      omega
    rw [hfrom.eq_of_length_le hlength, received_dispatchesOf honce]

/-- A pair that is subscribed at the begin of a period, and whose objects live
and which is not unsubscribed at any of its steps. -/
structure Callbacks.SubscribedDuring (entry : ObserverData Dispatcher Observer)
    (first last : Callbacks Dispatcher Observer Tid)
    (period : List (Action Dispatcher Observer Tid × Except Thrown Unit)) : Prop where
  mem : entry ∈ first.ride.manager.observers
  steps : (callbackMachine Dispatcher Observer Tid).RunsBy
    (fun self step => self.ride.alive entry ∧ self.ride.unsubscribedBy step.1 ≠ some entry)
    first period
  run : (callbackMachine Dispatcher Observer Tid).run first period = some last

/-- One round of the observer thread: it has popped a notification and takes
`observersMutex_`, it runs its loop over `observers_`, and it dispatches. -/
structure Callbacks.Round (notification : NotificationData)
    (popped locked taken done : Callbacks Dispatcher Observer Tid)
    (loop dispatch : List (Action Dispatcher Observer Tid × Except Thrown Unit)) : Prop where
  begins : popped.ride.observerThread = .popped notification
  lock : ∃ outcome,
    (callbackMachine Dispatcher Observer Tid).step popped (.observerStep, outcome) = some locked
  scanning : (callbackMachine Dispatcher Observer Tid).RunsBy
    (fun self _ => self.ride.observerThread.scans) locked loop
  runLoop : (callbackMachine Dispatcher Observer Tid).run locked loop = some taken
  unlocked : taken.ride.observerThread.scans = false
  dispatching : (callbackMachine Dispatcher Observer Tid).RunsBy
    (fun self _ => self.ride.observerThread.resting = false) taken dispatch
  runDispatch : (callbackMachine Dispatcher Observer Tid).run taken dispatch = some done
  finished : done.ride.observerThread.resting

/-- The round notifies the entries alive at the end of its loop, each by one call
and in their order, and they are the ones that stay. -/
structure Callbacks.Notified (notification : NotificationData)
    (popped taken done : Callbacks Dispatcher Observer Tid) : Prop where
  observers : taken.ride.manager.observers = popped.ride.manager.observers.filter taken.ride.alive
  distinct : taken.ride.manager.observers.Nodup
  calls : done.ride.dispatched = popped.ride.dispatched ++
    (popped.ride.manager.observers.filter taken.ride.alive).map
      fun entry => (notification, entry.pair)

omit [DecidableEq Dispatcher] [DecidableEq Observer] [Fintype Tid] [DecidableEq Tid] in
/-- A resting thread has made all the calls asked for. -/
theorem State.Offers.dispatched_of_resting {s : State Dispatcher Observer Tid} (h : s.Offers)
    (hresting : s.observerThread.resting) : s.dispatched = dispatchesOf s.snapshots := by
  cases hphase : s.observerThread with
  | scanning | dispatching | inDispatch =>
    rw [hphase] at hresting
    cases hresting
  | _ =>
    simp only [State.Offers, hphase] at h
    exact h.2

/-- A round notifies the entries alive at the end of its loop. -/
theorem Callbacks.Round.notified {notification : NotificationData}
    {popped locked taken done : Callbacks Dispatcher Observer Tid}
    {loop dispatch : List (Action Dispatcher Observer Tid × Except Thrown Unit)}
    (hreach : (callbackMachine Dispatcher Observer Tid).Reachable popped)
    (h : Callbacks.Round notification popped locked taken done loop dispatch) :
    Callbacks.Notified notification popped taken done := by
  have hextends : (callbackMachine Dispatcher Observer Tid).Extends
    (rideMachine Dispatcher Observer Tid) Callbacks.ride Prod.fst := callbackMachine_extends
  have hpopped := hextends.reachable hreach
  obtain ⟨outcome, hlock⟩ := h.lock
  have hstep := hextends.step_eq hlock
  have hlocked := hpopped.step hstep
  have hlockedRide : locked.ride = { popped.ride with
      observersMutex := some .observerThread
      observerThread := .scanning notification [] 0 .lockingDispatcher } := by
    change popped.ride.observerStep = some locked.ride at hstep
    simp only [State.observerStep, h.begins, Option.ite_none_right_eq_some,
      Option.some.injEq] at hstep
    exact hstep.2.symm
  have htaken : taken.ride.Taken popped.ride.manager.observers notification
      popped.ride.snapshots := by
    have hscanning : (rideMachine Dispatcher Observer Tid).RunsBy
      (fun s _ => s.observerThread.scans) locked.ride (loop.map Prod.fst) :=
      hextends.runsBy h.scanning
    have hrun := State.taken_of_run hlocked (by rw [hlockedRide]) hscanning
      (hextends.run_eq h.runLoop) h.unlocked
    rwa [hlockedRide] at hrun
  have hreachTaken := hlocked.run (hextends.run_eq h.runLoop)
  have hdispatching : (rideMachine Dispatcher Observer Tid).RunsBy
    (fun s _ => s.observerThread.resting = false) taken.ride (dispatch.map Prod.fst) :=
    hextends.runsBy h.dispatching
  have hrunDispatch := hextends.run_eq h.runDispatch
  obtain ⟨_, hsnapshots⟩ :=
    State.snapshots_of_dispatching hreachTaken h.unlocked hdispatching hrunDispatch
  have hresting : popped.ride.observerThread.resting = true := by rw [h.begins]; rfl
  have hbefore := (State.offers_of_reachable hpopped).dispatched_of_resting hresting
  have hafter := (State.offers_of_reachable (hreachTaken.run hrunDispatch)).dispatched_of_resting
    h.finished
  refine ⟨htaken.observers, (State.scanned_of_reachable hreachTaken).distinct, ?_⟩
  rw [hafter, hsnapshots, htaken.snapshots, dispatchesOf_append, ← hbefore, List.map_map]
  rfl

/-- A pair that stays alive and subscribed over a period receives of the snapshots taken in it a
gap-free part of the accepted transitions; and a round notifies each pair once whose sides are
both alive, and erases the others. -/
theorem notifications_gap_free :
    (∀ (entry : ObserverData Dispatcher Observer) (first last final : Callbacks Dispatcher Observer Tid)
        (period later : List (Action Dispatcher Observer Tid × Except Thrown Unit)),
      (callbackMachine Dispatcher Observer Tid).Reachable first →
      Callbacks.SubscribedDuring entry first last period →
      (callbackMachine Dispatcher Observer Tid).run last later = some final →
      ∃ new, last.ride.snapshots = first.ride.snapshots ++ new ∧
        final.ride.GapFree entry.pair first.ride.snapshots new) ∧
    ∀ (notification : NotificationData) (popped locked taken done : Callbacks Dispatcher Observer Tid)
        (loop dispatch : List (Action Dispatcher Observer Tid × Except Thrown Unit)),
      (callbackMachine Dispatcher Observer Tid).Reachable popped →
      Callbacks.Round notification popped locked taken done loop dispatch →
      Callbacks.Notified notification popped taken done := by
  have hextends : (callbackMachine Dispatcher Observer Tid).Extends
    (rideMachine Dispatcher Observer Tid) Callbacks.ride Prod.fst := callbackMachine_extends
  refine ⟨?_, fun notification popped locked taken done loop dispatch hreach hround =>
    hround.notified hreach⟩
  intro entry first last final period later hreach hperiod hlater
  have hride := hextends.reachable hreach
  have hrun := hextends.run_eq hperiod.run
  have hsteps : (rideMachine Dispatcher Observer Tid).RunsBy
    (fun s action => s.alive entry ∧ s.unsubscribedBy action ≠ some entry)
    first.ride (period.map Prod.fst) := hextends.runsBy hperiod.steps
  have hsubscribed : last.ride.Subscribed entry first.ride.snapshots := by
    refine hride.preserved (fun s action next hs hsubscribed hkept hstep => ?_) ?_ hsteps hrun
    · exact hsubscribed.step (State.offers_of_reachable hs) (State.scanned_of_reachable hs) hkept.1
        hkept.2 hstep
    · exact ⟨hperiod.mem, [], by simp, by simp⟩
  obtain ⟨new, hsnapshots, honce⟩ := hsubscribed.snapshots
  have hlast := hride.run hrun
  have hfinal := hextends.run_eq hlater
  refine ⟨new, hsnapshots, State.gapFree_of_snapshots (hlast.run hfinal) ?_ honce⟩
  rw [← hsnapshots]
  exact State.snapshots_prefix_of_run hlast hfinal

/-- Three pairs of which one expires, and two transitions. The first call throws. -/
theorem notifications_gap_free_throwing :
    (∃ first last : Callbacks Unit (Fin 3) Unit, ∃ new,
      last.ride.dispatched = [(⟨.idle, .requested⟩, ((), 0)), (⟨.idle, .requested⟩, ((), 2)),
        (⟨.requested, .passengerBoarding⟩, ((), 0)), (⟨.requested, .passengerBoarding⟩, ((), 2))] ∧
      last.stderr = [Thrown.unknown.report] ∧ last.ride.snapshots = first.ride.snapshots ++ new ∧
      last.ride.GapFree ((), 0) first.ride.snapshots new) ∧
    ∃ popped taken done : Callbacks Unit (Fin 3) Unit,
      popped.ride.manager.observers = [⟨(), 0⟩, ⟨(), 1⟩, ⟨(), 2⟩] ∧
      taken.ride.manager.observers = [⟨(), 0⟩, ⟨(), 2⟩] ∧ done.stderr = [Thrown.unknown.report] ∧
      Callbacks.Notified ⟨.idle, .requested⟩ popped taken done := by
  obtain ⟨first, hfirst, hcheck⟩ := transition.Machine.exists_reachable_of_run
    (M := callbackMachine Unit (Fin 3) Unit)
    (s := { ride := { dispatcherOwned := fun _ => true, observerOwned := fun _ => true } })
    ⟨⟨false, _, _, rfl⟩, rfl⟩
    ((.run, .ok ()) :: [(0, 2), (1, 7), (2, 12)].flatMap fun (observer, steps) =>
      (.subscribe () (some ()) (some observer), .ok ()) ::
        List.replicate steps (.callerStep (), .ok ()))
    (fun first : Callbacks Unit (Fin 3) Unit =>
      decide (⟨(), 0⟩ ∈ first.ride.manager.observers) &&
      ((callbackMachine Unit (Fin 3) Unit).runBy
        (fun self step => self.ride.alive ⟨(), 0⟩ ∧ self.ride.unsubscribedBy step.1 ≠ some ⟨(), 0⟩)
        first ((.releaseObserver 1, .ok ()) :: (.changeState .requestRide, .ok ()) ::
          (.changeState .startBoarding, .ok ()) :: List.replicate 20 (.observerStep, .ok ()) ++
          (.observerStep, .error .unknown) :: List.replicate 22 (.observerStep, .ok ()))).any
        fun last : Callbacks Unit (Fin 3) Unit => decide (last.ride.dispatched =
            [(⟨.idle, .requested⟩, ((), 0)), (⟨.idle, .requested⟩, ((), 2)),
              (⟨.requested, .passengerBoarding⟩, ((), 0)),
              (⟨.requested, .passengerBoarding⟩, ((), 2))] ∧
            last.stderr = [Thrown.unknown.report]))
    (by decide +kernel)
  obtain ⟨popped, hpopped, hround⟩ := transition.Machine.exists_reachable_of_run
    (M := callbackMachine Unit (Fin 3) Unit)
    (s := { ride := { dispatcherOwned := fun _ => true, observerOwned := fun _ => true } })
    ⟨⟨false, _, _, rfl⟩, rfl⟩
    ((.run, .ok ()) :: ([(0, 2), (1, 7), (2, 12)].flatMap fun (observer, steps) =>
        (.subscribe () (some ()) (some observer), .ok ()) ::
          List.replicate steps (.callerStep (), .ok ())) ++
      [(.releaseObserver 1, .ok ()), (.changeState .requestRide, .ok ()),
        (.changeState .startBoarding, .ok ()), (.observerStep, .ok ()), (.observerStep, .ok ())])
    (fun popped : Callbacks Unit (Fin 3) Unit =>
      decide (popped.ride.observerThread = .popped ⟨.idle, .requested⟩ ∧
        popped.ride.manager.observers = [⟨(), 0⟩, ⟨(), 1⟩, ⟨(), 2⟩]) &&
      ((callbackMachine Unit (Fin 3) Unit).step popped (.observerStep, .ok ())).any
        fun locked : Callbacks Unit (Fin 3) Unit =>
          ((callbackMachine Unit (Fin 3) Unit).runBy (fun self _ => self.ride.observerThread.scans)
            locked (List.replicate 16 (.observerStep, .ok ()))).any
            fun taken : Callbacks Unit (Fin 3) Unit =>
              decide (taken.ride.observerThread.scans = false ∧
                taken.ride.manager.observers = [⟨(), 0⟩, ⟨(), 2⟩]) &&
              ((callbackMachine Unit (Fin 3) Unit).runBy
                (fun self _ => self.ride.observerThread.resting = false) taken
                ((.observerStep, .ok ()) :: (.observerStep, .error .unknown) ::
                  List.replicate 3 (.observerStep, .ok ()))).any
                fun done : Callbacks Unit (Fin 3) Unit =>
                  decide (done.ride.observerThread.resting ∧ done.stderr = [Thrown.unknown.report]))
    (by decide +kernel)
  constructor
  · rw [Bool.and_eq_true, decide_eq_true_eq] at hcheck
    obtain ⟨hmem, hcheck⟩ := hcheck
    obtain ⟨last, hperiod, hcheck⟩ := (Option.any_eq_true _ _).mp hcheck
    obtain ⟨hdispatched, hstderr⟩ := of_decide_eq_true hcheck
    obtain ⟨hsteps, hrun⟩ := transition.Machine.runsBy_of_runBy hperiod
    obtain ⟨new, hnew, hgapFree⟩ := notifications_gap_free.1 ⟨(), 0⟩ first last last _ [] hfirst
      ⟨hmem, hsteps, hrun⟩ rfl
    exact ⟨first, last, new, hdispatched, hstderr, hnew, hgapFree⟩
  · rw [Bool.and_eq_true, decide_eq_true_eq] at hround
    obtain ⟨⟨hbegins, hbefore⟩, hround⟩ := hround
    obtain ⟨locked, hlock, hround⟩ := (Option.any_eq_true _ _).mp hround
    obtain ⟨taken, hloop, hround⟩ := (Option.any_eq_true _ _).mp hround
    rw [Bool.and_eq_true, decide_eq_true_eq] at hround
    obtain ⟨⟨hunlocked, hafter⟩, hround⟩ := hround
    obtain ⟨done, hdispatch, hround⟩ := (Option.any_eq_true _ _).mp hround
    obtain ⟨hfinished, hstderr⟩ := of_decide_eq_true hround
    obtain ⟨hscanning, hloop⟩ := transition.Machine.runsBy_of_runBy hloop
    obtain ⟨hdispatching, hdispatch⟩ := transition.Machine.runsBy_of_runBy hdispatch
    have hnotified := notifications_gap_free.2 _ popped locked taken done _ _ hpopped
      ⟨hbegins, ⟨_, hlock⟩, hscanning, hloop, hunlocked, hdispatching, hdispatch, hfinished⟩
    exact ⟨popped, taken, done, hbefore, hafter, hstderr, hnotified⟩

end spdlogger.ride_state_manager
