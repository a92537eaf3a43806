import Spdlogger.RideStateManager.Records

namespace spdlogger.ride_state_manager

variable {Dispatcher Observer Tid : Type} [DecidableEq Dispatcher] [DecidableEq Observer]
  [Fintype Tid] [DecidableEq Tid]

/-- An observer that has no entry left since the snapshots `taken`, when the
dispatch calls were `earlier`. -/
structure State.Forgotten (observer : Observer)
    (taken : List (NotificationData × List (Dispatcher × Observer)))
    (earlier : List (NotificationData × (Dispatcher × Observer)))
    (s : State Dispatcher Observer Tid) : Prop where
  entries : ∀ entry ∈ s.manager.observers, entry.observer ≠ observer
  snapshots : ∃ newer, s.snapshots = taken ++ newer ∧
    ∀ snapshot ∈ newer, ∀ pair ∈ snapshot.2, pair.2 ≠ observer
  dispatched : ∃ calls, s.dispatched = earlier ++ calls ∧
    ∀ call ∈ calls, call.2.2 = observer →
      ∃ snapshot ∈ taken.getLast?, call.1 = snapshot.1 ∧ call.2 ∈ snapshot.2

omit [DecidableEq Tid] in
/-- Without a subscription of the observer no entry of it appears. -/
theorem State.Edit.not_mem {s next : State Dispatcher Observer Tid}
    {action : Action Dispatcher Observer Tid} (h : s.Edit next action) {observer : Observer}
    (hentries : ∀ entry ∈ s.manager.observers, entry.observer ≠ observer)
    (hpushed : ∀ dispatcher, s.pushedBy action ≠ some ⟨dispatcher, observer⟩) :
    ∀ entry ∈ next.manager.observers, entry.observer ≠ observer := by
  cases h with
  | keep hnext => exact hnext ▸ hentries
  | push entry hentry hnext =>
    rw [hnext]
    intro other hother
    obtain hbefore | hnew := List.mem_append.mp hother
    · exact hentries other hbefore
    · rw [List.mem_singleton.mp hnew]
      rintro rfl
      exact hpushed entry.dispatcher hentry
  | erase index _ hnext =>
    rw [hnext]
    exact fun entry hentry => hentries entry (List.mem_of_mem_eraseIdx hentry)

/-- A step that does not subscribe the observer again leaves it forgotten. -/
theorem State.Forgotten.step {s next : State Dispatcher Observer Tid} {observer : Observer}
    {taken : List (NotificationData × List (Dispatcher × Observer))}
    {earlier : List (NotificationData × (Dispatcher × Observer))}
    (h : s.Forgotten observer taken earlier) (hoffers : s.Offers) (hscanned : s.Scanned)
    {action : Action Dispatcher Observer Tid}
    (hpushed : ∀ dispatcher, s.pushedBy action ≠ some ⟨dispatcher, observer⟩)
    (hstep : s.step action = some next) : next.Forgotten observer taken earlier := by
  have hentries := (hscanned.edit_of_step hstep).not_mem h.entries hpushed
  obtain ⟨newer, hsnapshots, hnewer⟩ := h.snapshots
  obtain ⟨calls, hdispatched, hcalls⟩ := h.dispatched
  cases State.record_of_step hoffers hscanned hstep with
  | neither hsame hsameCalls =>
    exact ⟨hentries, ⟨newer, hsame.trans hsnapshots, hnewer⟩,
      ⟨calls, hsameCalls.trans hdispatched, hcalls⟩⟩
  | snapshot notification index _ hnext hsameCalls =>
    refine ⟨hentries, ⟨newer ++ [(notification, s.manager.observers.map ObserverData.pair)], ?_, ?_⟩,
      ⟨calls, hsameCalls.trans hdispatched, hcalls⟩⟩
    · rw [hnext, hsnapshots, List.append_assoc]
    · intro snapshot hsnapshot
      obtain hbefore | hnow := List.mem_append.mp hsnapshot
      · exact hnewer snapshot hbefore
      · rw [List.mem_singleton.mp hnow]
        intro pair hpair
        obtain ⟨entry, hentry, rfl⟩ := List.mem_map.mp hpair
        exact h.entries entry hentry
  | dispatch before notification healthyObservers pair hlast hpair hsame hnext =>
    refine ⟨hentries, ⟨newer, hsame.trans hsnapshots, hnewer⟩, ⟨calls ++ [(notification, pair)], ?_, ?_⟩⟩
    · rw [hnext, hdispatched, List.append_assoc]
    · intro call hcall hobserver
      obtain hbefore | hnow := List.mem_append.mp hcall
      · exact hcalls call hbefore hobserver
      rw [List.mem_singleton.mp hnow] at hobserver ⊢
      -- A snapshot with the observer in it is none of the newer ones.
      obtain rfl | ⟨newer, final, rfl⟩ := List.eq_nil_or_concat newer
      · rw [List.append_nil, hlast] at hsnapshots
        refine ⟨(notification, healthyObservers), ?_, rfl, hpair⟩
        rw [← hsnapshots, List.getLast?_concat]
        rfl
      · rw [hlast, List.concat_eq_append, ← List.append_assoc] at hsnapshots
        obtain ⟨_, hfinal⟩ := List.append_inj' hsnapshots rfl
        rw [List.singleton_inj] at hfinal
        have hnone := hnewer final (by simp)
        rw [← hfinal] at hnone
        exact absurd hobserver (hnone pair hpair)

/-- The loop of `unsubscribe` keeps the observer thread from taking snapshots. -/
theorem State.snapshots_while_unsubscribing {s next : State Dispatcher Observer Tid}
    (hoffers : s.Offers) (hscanned : s.Scanned) (hlocked : s.Locked) {thread : Tid}
    (hinside : (s.callers thread).scans) {action : Action Dispatcher Observer Tid}
    (hstep : s.step action = some next) : next.snapshots = s.snapshots := by
  have houtside := hlocked.thread_outside hinside
  cases State.record_of_step hoffers hscanned hstep with
  | neither hsame => exact hsame
  | snapshot notification index hphase =>
    rw [hphase] at houtside
    cases houtside
  | dispatch _ _ _ _ _ _ hsame => exact hsame

omit [DecidableEq Dispatcher] in
/-- `unsubscribe` returns from its loop at the end of `observers_`. -/
theorem State.end_of_unsubscribeStep {s : State Dispatcher Observer Tid} {thread : Tid}
    {observer : Observer} {index : Nat} {scan : Scan Dispatcher Observer} {result : Bool}
    (hreturned : (s.unsubscribeStep thread observer index scan).callers thread = .returned result) :
    s.manager.observers.length ≤ index ∧
      (s.unsubscribeStep thread observer index scan).manager = s.manager := by
  have hmove := s.unsubscribeMove thread observer index scan
  generalize s.unsubscribeStep thread observer index scan = next at hreturned hmove ⊢
  cases hmove with
  | finish _ _ hend => exact ⟨hend, rfl⟩
  | _ => simp [State.setCaller] at hreturned

/-- The step with which an `unsubscribe` returns leaves no entry of its observer. -/
theorem State.Scanned.entries_of_return {s next : State Dispatcher Observer Tid} (h : s.Scanned)
    {thread : Tid} {observer : Observer} {index : Nat} {scan : Scan Dispatcher Observer}
    (hphase : s.callers thread = .unsubscribing observer index scan)
    {action : Action Dispatcher Observer Tid} (hstep : s.step action = some next) {result : Bool}
    (hreturned : next.callers thread = .returned result) :
    ∀ entry ∈ next.manager.observers, entry.observer ≠ observer := by
  have hbusy {phase : CallerPhase Dispatcher Observer} (hsame : phase = s.callers thread)
      (hphaseReturned : phase = .returned result) : False := by
    rw [hphaseReturned, hphase] at hsame
    cases hsame
  cases State.turn_of_step hstep with
  | elsewhere hframe | owner hframe => exact (hbusy (congrFun hframe.callers thread) hreturned).elim
  | call other phase houtside _ _ _ hnext =>
    have hother : thread ≠ other := by
      rintro rfl
      rw [hphase] at houtside
      cases houtside
    subst hnext
    exact (hbusy (Function.update_of_ne hother _ _) hreturned).elim
  | callerStep other hcaller =>
    by_cases hother : thread = other
    · subst hother
      have hreads := h.callers thread
      rw [hphase] at hreads
      obtain ⟨hunmet, _⟩ := hreads
      simp only [State.callerStep, hphase, Option.some.injEq] at hcaller
      subst hcaller
      obtain ⟨hend, hmanager⟩ := State.end_of_unsubscribeStep hreturned
      rw [List.take_of_length_le hend] at hunmet
      rw [hmanager]
      exact hunmet
    · obtain ⟨phase, hcallers⟩ := State.callers_callerStep hcaller
      refine (hbusy ?_ hreturned).elim
      rw [hcallers, Function.update_of_ne hother]
  | lock _ _ _ hnext | dispatch _ _ _ _ _ _ hnext | resume _ _ _ _ hnext | finish _ _ _ _ _ hnext =>
    subst hnext
    exact (hbusy rfl hreturned).elim
  | scan notification healthyObservers position current _ hnext =>
    subst hnext
    obtain ⟨hcallers, _⟩ := s.snapshotStep_scans notification healthyObservers position current
    exact (hbusy (congrFun hcallers thread) hreturned).elim

/-- A thread runs the loop of `unsubscribe`. -/
def State.Unsubscribing (thread : Tid) (observer : Observer) (s : State Dispatcher Observer Tid) :
    Prop :=
  ∃ index scan, s.callers thread = .unsubscribing observer index scan

instance (thread : Tid) (observer : Observer) (s : State Dispatcher Observer Tid) :
    Decidable (s.Unsubscribing thread observer) :=
  match hphase : s.callers thread with
  | .unsubscribing argument index scan =>
    decidable_of_iff (argument = observer)
      ⟨fun hargument => ⟨index, scan, hargument ▸ hphase⟩, fun ⟨_, _, hcall⟩ => by
        rw [hphase] at hcall
        cases hcall
        rfl⟩
  | .idle | .acquiringSubscribe _ _ | .subscribing _ _ _ _ | .acquiringUnsubscribe _
  | .returned _ => .isFalse fun ⟨_, _, hcall⟩ => by simp [hphase] at hcall

/-- When the loop has returned, the observer has no entry and no new snapshot. -/
theorem State.forgotten_of_return {s last : State Dispatcher Observer Tid}
    (hreach : (rideMachine Dispatcher Observer Tid).Reachable s) {thread : Tid}
    {observer : Observer} (hcall : s.Unsubscribing thread observer)
    {schedule : List (Action Dispatcher Observer Tid)}
    (hinside : (rideMachine Dispatcher Observer Tid).RunsBy
      (fun s _ => s.Unsubscribing thread observer) s schedule)
    (hrun : (rideMachine Dispatcher Observer Tid).run s schedule = some last) {result : Bool}
    (hreturned : last.callers thread = .returned result) :
    last.Forgotten observer s.snapshots last.dispatched := by
  induction schedule generalizing s with
  | nil =>
    simp only [transition.Machine.run, Option.some.injEq] at hrun
    obtain ⟨index, scan, hphase⟩ := hcall
    rw [hrun, hreturned] at hphase
    cases hphase
  | cons action rest ih =>
    obtain ⟨next, hstep, hrest⟩ := Option.bind_eq_some_iff.mp hrun
    obtain ⟨index, scan, hphase⟩ := hcall
    have hscanned := State.scanned_of_reachable hreach
    have hsnapshots : next.snapshots = s.snapshots :=
      State.snapshots_while_unsubscribing (State.offers_of_reachable hreach) hscanned
        (State.locked_of_reachable hreach) (by rw [hphase]; rfl) hstep
    have hlater := hinside.2 next hstep
    cases rest with
    | nil =>
      simp only [transition.Machine.run, Option.some.injEq] at hrest
      subst hrest
      refine ⟨hscanned.entries_of_return hphase hstep hreturned, ⟨[], ?_, by simp⟩, ⟨[], ?_, by simp⟩⟩
      · rw [hsnapshots, List.append_nil]
      · rw [List.append_nil]
    | cons second others =>
      rw [← hsnapshots]
      exact ih (hreach.step hstep) hlater.1 hlater hrest

/-- A thread has called `unsubscribe` and takes the locks, its loop returns `true`, and no
subscription of the observer follows. Then no snapshot taken since it took the locks has the
observer in it, and every dispatch call to the observer that begins after the return is of the
last snapshot from before. -/
theorem State.last_notice {before locked returned last : State Dispatcher Observer Tid}
    (hreach : (rideMachine Dispatcher Observer Tid).Reachable before) {thread : Tid}
    {observer : Observer} (hcall : before.callers thread = .acquiringUnsubscribe observer)
    (hlock : (rideMachine Dispatcher Observer Tid).step before (.callerStep thread) = some locked)
    {loop later : List (Action Dispatcher Observer Tid)}
    (hinside : (rideMachine Dispatcher Observer Tid).RunsBy
      (fun s _ => s.Unsubscribing thread observer) locked loop)
    (hloop : (rideMachine Dispatcher Observer Tid).run locked loop = some returned)
    (hreturned : returned.callers thread = .returned true)
    (hunsubscribed : (rideMachine Dispatcher Observer Tid).RunsBy
      (fun s action => ∀ dispatcher, s.pushedBy action ≠ some ⟨dispatcher, observer⟩) returned later)
    (hlater : (rideMachine Dispatcher Observer Tid).run returned later = some last) :
    ∃ newer calls, last.snapshots = before.snapshots ++ newer ∧
      last.dispatched = returned.dispatched ++ calls ∧
      (∀ snapshot ∈ newer, ∀ pair ∈ snapshot.2, pair.2 ≠ observer) ∧
      ∀ call ∈ calls, call.2.2 = observer →
        ∃ snapshot ∈ before.snapshots.getLast?, call.1 = snapshot.1 ∧ call.2 ∈ snapshot.2 := by
  have hlocked : locked.Unsubscribing thread observer := by
    cases loop with
    | nil =>
      simp only [transition.Machine.run, Option.some.injEq] at hloop
      subst hloop
      change before.callerStep thread = some locked at hlock
      simp only [State.callerStep, hcall, Option.ite_none_right_eq_some] at hlock
      obtain ⟨_, hlock⟩ := hlock
      split at hlock
      · cases hlock
        simp [State.setCaller] at hreturned
      · cases hlock
        simp [State.setCaller] at hreturned
    | cons action rest => exact hinside.1
  have hsnapshots : locked.snapshots = before.snapshots :=
    (State.callFrame_callerStep hlock).snapshots
  have hbefore := hreach.step hlock
  have hforgotten := State.forgotten_of_return hbefore hlocked hinside hloop hreturned
  have hend : last.Forgotten observer locked.snapshots returned.dispatched := by
    refine (hbefore.run hloop).preserved (fun s action next hs hsafe hpushed hnext => ?_) hforgotten
      hunsubscribed hlater
    exact hsafe.step (State.offers_of_reachable hs) (State.scanned_of_reachable hs) hpushed hnext
  obtain ⟨newer, hnewer, hnone⟩ := hend.snapshots
  obtain ⟨calls, hcalls, hlast⟩ := hend.dispatched
  rw [hsnapshots] at hnewer hlast
  exact ⟨newer, calls, hnewer, hcalls, hnone, hlast⟩

/-- An observer unsubscribes while the snapshot with it is being dispatched. -/
theorem last_notice_in_flight :
    ∃ before returned last : State Unit Unit Unit, ∃ newer calls,
      before.snapshots = [(⟨.idle, .requested⟩, [((), ())])] ∧
      last.dispatched.length = returned.dispatched.length + 1 ∧
      last.snapshots = before.snapshots ++ newer ∧ last.dispatched = returned.dispatched ++ calls ∧
      (∀ snapshot ∈ newer, ∀ pair ∈ snapshot.2, pair.2 ≠ ()) ∧
      ∀ call ∈ calls, call.2.2 = () →
        ∃ snapshot ∈ before.snapshots.getLast?, call.1 = snapshot.1 ∧ call.2 ∈ snapshot.2 := by
  obtain ⟨before, hreach, hcheck⟩ := transition.Machine.exists_reachable_of_run
    (M := rideMachine Unit Unit Unit)
    (s := { dispatcherOwned := fun _ => true, observerOwned := fun _ => true }) ⟨false, _, _, rfl⟩
    ([.run, .subscribe () (some ()) (some ()), .callerStep (), .callerStep (),
      .changeState .requestRide] ++ List.replicate 9 .observerStep ++ [.unsubscribe () (some ())])
    (fun before : State Unit Unit Unit => decide (before.callers () = .acquiringUnsubscribe () ∧
        before.snapshots = [(⟨.idle, .requested⟩, [((), ())])]) &&
      ((rideMachine Unit Unit Unit).step before (.callerStep ())).any fun locked : State Unit Unit Unit =>
        ((rideMachine Unit Unit Unit).runBy (fun s _ => State.Unsubscribing () () s) locked
          (List.replicate 4 (.callerStep ()))).any fun returned : State Unit Unit Unit =>
            decide (returned.callers () = .returned true) &&
            ((rideMachine Unit Unit Unit).runBy
              (fun s action => ∀ dispatcher, s.pushedBy action ≠ some ⟨dispatcher, ()⟩) returned
              [.observerStep]).any fun last : State Unit Unit Unit =>
                decide (last.dispatched.length = returned.dispatched.length + 1))
    (by decide)
  rw [Bool.and_eq_true, decide_eq_true_eq] at hcheck
  obtain ⟨⟨hcall, hsnapshots⟩, hcheck⟩ := hcheck
  obtain ⟨locked, hlock, hcheck⟩ := (Option.any_eq_true _ _).mp hcheck
  obtain ⟨returned, hloop, hcheck⟩ := (Option.any_eq_true _ _).mp hcheck
  rw [Bool.and_eq_true, decide_eq_true_eq] at hcheck
  obtain ⟨hreturned, hcheck⟩ := hcheck
  obtain ⟨last, hlater, hcheck⟩ := (Option.any_eq_true _ _).mp hcheck
  obtain ⟨hinside, hloop⟩ := transition.Machine.runsBy_of_runBy hloop
  obtain ⟨hunsubscribed, hlater⟩ := transition.Machine.runsBy_of_runBy hlater
  obtain ⟨newer, calls, hlast⟩ :=
    State.last_notice hreach hcall hlock hinside hloop hreturned hunsubscribed hlater
  exact ⟨before, returned, last, newer, calls, hsnapshots, of_decide_eq_true hcheck, hlast⟩

end spdlogger.ride_state_manager
