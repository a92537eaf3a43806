import Spdlogger.RideStateManager.Dispatch
import Spdlogger.RideStateManager.Entries

namespace spdlogger.ride_state_manager

variable {Dispatcher Observer Tid : Type} [DecidableEq Dispatcher] [DecidableEq Observer]
  [Fintype Tid] [DecidableEq Tid]

/-- What a step adds to the snapshots and to the dispatch calls. A snapshot is
of all the entries there are at its end, and a call is of the last snapshot. -/
inductive State.Record (s next : State Dispatcher Observer Tid) : Prop where
  | neither (hsnapshots : next.snapshots = s.snapshots) (hdispatched : next.dispatched = s.dispatched)
  | snapshot (notification : NotificationData) (index : Nat)
      (hphase : s.observerThread = .scanning notification
        (s.manager.observers.map ObserverData.pair) index .lockingDispatcher)
      (hsnapshots : next.snapshots =
        s.snapshots ++ [(notification, s.manager.observers.map ObserverData.pair)])
      (hdispatched : next.dispatched = s.dispatched)
  | dispatch (earlier : List (NotificationData × List (Dispatcher × Observer)))
      (notification : NotificationData) (healthyObservers : List (Dispatcher × Observer))
      (pair : Dispatcher × Observer)
      (hlast : s.snapshots = earlier ++ [(notification, healthyObservers)])
      (hpair : pair ∈ healthyObservers) (hsnapshots : next.snapshots = s.snapshots)
      (hdispatched : next.dispatched = s.dispatched ++ [(notification, pair)])

omit [DecidableEq Tid] in
/-- A step of the observer thread's loop adds a snapshot of all entries, at its end. -/
theorem State.Scanned.record_snapshotStep {s : State Dispatcher Observer Tid} (h : s.Scanned)
    {notification : NotificationData} {healthyObservers : List (Dispatcher × Observer)}
    {index : Nat} {scan : Scan Dispatcher Observer}
    (hphase : s.observerThread = .scanning notification healthyObservers index scan) :
    s.Record (s.snapshotStep notification healthyObservers index scan) := by
  have hreads := h.observerThread
  rw [hphase] at hreads
  obtain ⟨hhealthy, -, -⟩ := hreads
  have hmove := s.snapshotMove notification healthyObservers index scan
  generalize s.snapshotStep notification healthyObservers index scan = next at hmove
  cases hmove with
  | leave hend =>
    rw [List.take_of_length_le hend] at hhealthy
    subst hhealthy
    exact .snapshot notification index hphase rfl rfl
  | _ => exact .neither rfl rfl

/-- Every step adds to the records what `Record` says. -/
theorem State.record_of_step {s next : State Dispatcher Observer Tid} (hoffers : s.Offers)
    (hscanned : s.Scanned) {action : Action Dispatcher Observer Tid}
    (hstep : s.step action = some next) : s.Record next := by
  cases State.turn_of_step hstep with
  | elsewhere hframe | owner hframe => exact .neither hframe.snapshots hframe.dispatched
  | call _ _ _ _ _ _ hnext | lock _ _ _ hnext | resume _ _ _ _ hnext | finish _ _ _ _ _ hnext =>
    subst hnext
    exact .neither rfl rfl
  | callerStep thread hcaller =>
    have hframe := State.callFrame_callerStep hcaller
    exact .neither hframe.snapshots hframe.dispatched
  | scan notification healthyObservers index scan hphase hnext =>
    subst hnext
    exact hscanned.record_snapshotStep hphase
  | dispatch notification healthyObservers index pair hphase hpair hnext =>
    subst hnext
    simp only [State.Offers, hphase] at hoffers
    obtain ⟨_, earlier, hlast, _⟩ := hoffers
    exact .dispatch earlier notification healthyObservers pair hlast (List.mem_of_getElem? hpair)
      rfl rfl

end spdlogger.ride_state_manager
