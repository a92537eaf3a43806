import Mathlib.Data.List.InsertIdx
import Spdlogger.RideStateManager.Liveness
import Spdlogger.RideStateManager.Locks

namespace spdlogger.ride_state_manager

/-- The two sides of an entry. -/
def ObserverData.pair {Dispatcher Observer : Type} (self : ObserverData Dispatcher Observer) :
    Dispatcher × Observer :=
  (self.dispatcher, self.observer)

variable {Dispatcher Observer Tid : Type} [DecidableEq Dispatcher] [DecidableEq Observer]
  [Fintype Tid] [DecidableEq Tid]

/-- What a loop has locked is the dispatcher of the entry it stands at, and what
it could not lock is gone. -/
def State.ReadsDispatcher (s : State Dispatcher Observer Tid) (index : Nat)
    (dispatcher : Option Dispatcher) : Prop :=
  match dispatcher with
  | some d => s.manager.observers[index]?.map ObserverData.dispatcher = some d
  | none => s.lockDispatcher index = none

/-- What an iteration has locked is the observer of its entry, or nothing of an entry that has
expired. -/
def State.ReadsObserver (s : State Dispatcher Observer Tid) (index : Nat)
    (observer : Option Observer) : Prop :=
  match observer with
  | some o => s.manager.observers[index]?.map ObserverData.observer = some o
  | none => s.lockObserver index = none

/-- What an iteration has locked is of the entry it looks at. -/
def State.Reads (s : State Dispatcher Observer Tid) (index : Nat) : Scan Dispatcher Observer → Prop
  | .lockingObserver dispatcher => s.ReadsDispatcher index dispatcher
  | .deciding dispatcher observer =>
    s.ReadsDispatcher index dispatcher ∧ s.ReadsObserver index observer
  | .lockingDispatcher | .releasingObserver _ _ _ | .releasingDispatcher _ _ => True

/-- Whether the loop is at an entry that it has still to decide on. -/
def Scan.atEntry {Dispatcher Observer : Type} : Scan Dispatcher Observer → Bool
  | .lockingObserver _ | .deciding _ _ => true
  | _ => false

/-- The observer thread has copied the entries it has passed. -/
def State.ThreadReads (s : State Dispatcher Observer Tid) :
    ObserverPhase Dispatcher Observer → Prop
  | .scanning _ healthyObservers index scan =>
    healthyObservers = (s.manager.observers.take index).map ObserverData.pair ∧
      (scan.atEntry → index < s.manager.observers.length) ∧ s.Reads index scan
  | _ => True

/-- `subscribe` has not met its pair in the entries it has passed, nor
`unsubscribe` its observer. -/
def State.CallerReads (s : State Dispatcher Observer Tid) :
    CallerPhase Dispatcher Observer → Prop
  | .subscribing dispatcher observer index scan =>
    ⟨dispatcher, observer⟩ ∉ s.manager.observers.take index ∧ s.Reads index scan
  | .unsubscribing observer index scan =>
    (∀ entry ∈ s.manager.observers.take index, entry.observer ≠ observer) ∧
      ∀ d o, scan = .deciding d o → s.ReadsObserver index o
  | _ => True

omit [DecidableEq Tid] in
/-- Outside its loop the observer thread has read nothing. -/
theorem State.threadReads_of_not_scans {phase : ObserverPhase Dispatcher Observer}
    (hphase : phase.scans = false) (s : State Dispatcher Observer Tid) : s.ThreadReads phase := by
  cases phase with
  | scanning => cases hphase
  | _ => trivial

omit [DecidableEq Tid] in
/-- Outside its loop a call has read nothing. -/
theorem State.callerReads_of_not_scans {phase : CallerPhase Dispatcher Observer}
    (hphase : phase.scans = false) (s : State Dispatcher Observer Tid) : s.CallerReads phase := by
  cases phase with
  | subscribing | unsubscribing => cases hphase
  | _ => trivial

omit [DecidableEq Tid] in
/-- The entry at which both of its objects are locked. -/
theorem State.Reads.entry_eq {s : State Dispatcher Observer Tid} {index : Nat}
    {dispatcher : Dispatcher} {observer : Observer}
    (h : s.Reads index (.deciding (some dispatcher) (some observer))) :
    s.manager.observers[index]? = some ⟨dispatcher, observer⟩ := by
  obtain ⟨hdispatcher, hobserver⟩ := h
  unfold State.ReadsDispatcher at hdispatcher
  unfold State.ReadsObserver at hobserver
  cases hentry : s.manager.observers[index]? with
  | none => simp [hentry] at hdispatcher
  | some entry =>
    simp only [hentry, Option.map_some, Option.some.injEq] at hdispatcher hobserver
    rw [← hdispatcher, ← hobserver]

section Frame

variable {s next : State Dispatcher Observer Tid}

omit [DecidableEq Tid] in
theorem State.ReadsDispatcher.frame {index : Nat} {dispatcher : Option Dispatcher}
    (h : s.ReadsDispatcher index dispatcher) (hages : s.Ages next)
    (hobservers : next.manager.observers = s.manager.observers) :
    next.ReadsDispatcher index dispatcher := by
  cases dispatcher with
  | none => exact hages.lockDispatcher hobservers h
  | some d =>
    unfold State.ReadsDispatcher at h ⊢
    rw [hobservers]
    exact h

omit [DecidableEq Tid] in
theorem State.ReadsObserver.frame {index : Nat} {observer : Option Observer}
    (h : s.ReadsObserver index observer) (hages : s.Ages next)
    (hobservers : next.manager.observers = s.manager.observers) :
    next.ReadsObserver index observer := by
  cases observer with
  | none => exact hages.lockObserver hobservers h
  | some o =>
    unfold State.ReadsObserver at h ⊢
    rw [hobservers]
    exact h

omit [DecidableEq Tid] in
theorem State.Reads.frame {index : Nat} {scan : Scan Dispatcher Observer} (h : s.Reads index scan)
    (hages : s.Ages next) (hobservers : next.manager.observers = s.manager.observers) :
    next.Reads index scan := by
  cases scan with
  | lockingObserver => exact State.ReadsDispatcher.frame h hages hobservers
  | deciding => exact ⟨h.1.frame hages hobservers, h.2.frame hages hobservers⟩
  | _ => trivial

omit [DecidableEq Tid] in
theorem State.ThreadReads.frame {phase : ObserverPhase Dispatcher Observer}
    (h : s.ThreadReads phase) (hages : s.Ages next)
    (hobservers : next.manager.observers = s.manager.observers) : next.ThreadReads phase := by
  cases phase with
  | scanning notification healthyObservers index scan =>
    obtain ⟨hhealthy, hinside, hreads⟩ := h
    unfold State.ThreadReads
    rw [hobservers]
    exact ⟨hhealthy, hinside, hreads.frame hages hobservers⟩
  | _ => trivial

omit [DecidableEq Tid] in
theorem State.CallerReads.frame {phase : CallerPhase Dispatcher Observer} (h : s.CallerReads phase)
    (hages : s.Ages next) (hobservers : next.manager.observers = s.manager.observers) :
    next.CallerReads phase := by
  cases phase with
  | subscribing dispatcher observer index scan =>
    obtain ⟨hunmet, hreads⟩ := h
    unfold State.CallerReads
    rw [hobservers]
    exact ⟨hunmet, hreads.frame hages hobservers⟩
  | unsubscribing observer index scan =>
    obtain ⟨hunmet, hreads⟩ := h
    unfold State.CallerReads
    rw [hobservers]
    exact ⟨hunmet, fun d o hscan => (hreads d o hscan).frame hages hobservers⟩
  | _ => trivial

end Frame

section Lock

variable {s next : State Dispatcher Observer Tid}

omit [DecidableEq Tid] in
/-- Locking reads the dispatcher of the entry. -/
theorem State.readsDispatcher_lock (hages : s.Ages next)
    (hobservers : next.manager.observers = s.manager.observers) (index : Nat) :
    next.ReadsDispatcher index (s.lockDispatcher index) := by
  cases hlock : s.lockDispatcher index with
  | none => exact hages.lockDispatcher hobservers hlock
  | some d =>
    unfold State.ReadsDispatcher
    rw [hobservers]
    exact (State.lockDispatcher_eq_some hlock).1

omit [DecidableEq Tid] in
/-- Locking reads the observer of the entry. -/
theorem State.readsObserver_lock (hages : s.Ages next)
    (hobservers : next.manager.observers = s.manager.observers) (index : Nat) :
    next.ReadsObserver index (s.lockObserver index) := by
  cases hlock : s.lockObserver index with
  | none => exact hages.lockObserver hobservers hlock
  | some o =>
    unfold State.ReadsObserver
    rw [hobservers]
    exact (State.lockObserver_eq_some hlock).1

end Lock

/-- The loops over `observers_`, and that no pair is subscribed twice. -/
structure State.Scanned (s : State Dispatcher Observer Tid) : Prop where
  observerThread : s.ThreadReads s.observerThread
  callers : ∀ thread, s.CallerReads (s.callers thread)
  distinct : s.manager.observers.Nodup

omit [DecidableEq Tid] in
/-- A step of the observer thread's loop. -/
theorem State.Scanned.snapshotStep {s : State Dispatcher Observer Tid} (h : s.Scanned)
    {notification : NotificationData} {healthyObservers : List (Dispatcher × Observer)}
    {index : Nat} {scan : Scan Dispatcher Observer}
    (hphase : s.observerThread = .scanning notification healthyObservers index scan) :
    let next := s.snapshotStep notification healthyObservers index scan
    next.ThreadReads next.observerThread ∧ next.manager.observers.Nodup := by
  have hages := State.ages_snapshotStep hphase
  have hreads := h.observerThread
  rw [hphase] at hreads
  obtain ⟨hhealthy, hinside, hscan⟩ := hreads
  have hkept : (s.manager.observers.eraseIdx index).take index = s.manager.observers.take index :=
    List.take_eraseIdx_eq_take_of_le _ _ _ (Nat.le_refl index)
  have hmove := s.snapshotMove notification healthyObservers index scan
  generalize s.snapshotStep notification healthyObservers index scan = next at hages hmove ⊢
  cases hmove with
  | lockDispatcher hlt =>
    exact ⟨⟨hhealthy, fun _ => hlt, State.readsDispatcher_lock hages rfl index⟩, h.distinct⟩
  | leave => exact ⟨trivial, h.distinct⟩
  | lockObserver =>
    refine ⟨⟨hhealthy, hinside, ?_, State.readsObserver_lock hages rfl index⟩, h.distinct⟩
    exact State.ReadsDispatcher.frame hscan hages rfl
  | copy =>
    refine ⟨⟨?_, by simp [Scan.atEntry], trivial⟩, h.distinct⟩
    show healthyObservers ++ [_] = (s.manager.observers.take (index + 1)).map ObserverData.pair
    rw [List.take_add_one, hscan.entry_eq, hhealthy, List.map_append]
    rfl
  | erase =>
    refine ⟨⟨?_, by simp [Scan.atEntry], trivial⟩, h.distinct.sublist (List.eraseIdx_sublist _ _)⟩
    show healthyObservers = ((s.manager.observers.eraseIdx index).take index).map ObserverData.pair
    rw [hkept, hhealthy]
  | releaseObserver | next => exact ⟨⟨hhealthy, by simp [Scan.atEntry], trivial⟩, h.distinct⟩

/-- A step of the loop of `subscribe`. -/
theorem State.Scanned.subscribeStep {s : State Dispatcher Observer Tid} (h : s.Scanned)
    {thread : Tid} {dispatcher : Dispatcher} {observer : Observer} {index : Nat}
    {scan : Scan Dispatcher Observer}
    (hphase : s.callers thread = .subscribing dispatcher observer index scan) :
    let next := s.subscribeStep thread dispatcher observer index scan
    next.CallerReads (next.callers thread) ∧ next.manager.observers.Nodup := by
  have hages := State.ages_subscribeStep hphase
  have hreads := h.callers thread
  rw [hphase] at hreads
  obtain ⟨hunmet, hscan⟩ := hreads
  have hkept : (s.manager.observers.eraseIdx index).take index = s.manager.observers.take index :=
    List.take_eraseIdx_eq_take_of_le _ _ _ (Nat.le_refl index)
  have hmove := s.subscribeMove thread dispatcher observer index scan
  generalize s.subscribeStep thread dispatcher observer index scan = next at hages hmove ⊢
  cases hmove with
  | lockDispatcher =>
    simp only [State.setCaller, Function.update_self]
    exact ⟨⟨hunmet, State.readsDispatcher_lock hages rfl index⟩, h.distinct⟩
  | append hend =>
    simp only [State.finishCall, State.setCaller, Function.update_self]
    refine ⟨trivial, ?_⟩
    rw [List.take_of_length_le hend] at hunmet
    exact List.nodup_append.mpr ⟨h.distinct, by simp, by
      simp only [List.mem_singleton]
      rintro entry hentry _ rfl rfl
      exact hunmet hentry⟩
  | lockObserver =>
    simp only [State.setCaller, Function.update_self]
    refine ⟨⟨hunmet, ?_, State.readsObserver_lock hages rfl index⟩, h.distinct⟩
    exact State.ReadsDispatcher.frame hscan hages rfl
  | pass _ _ hother =>
    simp only [State.setCaller, Function.update_self]
    refine ⟨⟨?_, trivial⟩, h.distinct⟩
    show _ ∉ s.manager.observers.take (index + 1)
    rw [List.take_add_one, hscan.entry_eq, Option.toList_some, List.mem_append, List.mem_singleton]
    rintro (hearlier | hnow)
    · exact hunmet hearlier
    · cases hnow
      exact hother ⟨rfl, rfl⟩
  | erase =>
    simp only [State.setCaller, State.eraseEntry, Function.update_self]
    refine ⟨⟨?_, trivial⟩, h.distinct.sublist (List.eraseIdx_sublist _ _)⟩
    show _ ∉ (s.manager.observers.eraseIdx index).take index
    rw [hkept]
    exact hunmet
  | find | releaseObserver | next =>
    simp only [State.setCaller, Function.update_self]
    exact ⟨⟨hunmet, trivial⟩, h.distinct⟩
  | reject =>
    simp only [State.finishCall, State.setCaller, Function.update_self]
    exact ⟨trivial, h.distinct⟩

/-- A step of the loop of `unsubscribe`. -/
theorem State.Scanned.unsubscribeStep {s : State Dispatcher Observer Tid} (h : s.Scanned)
    {thread : Tid} {observer : Observer} {index : Nat} {scan : Scan Dispatcher Observer}
    (hphase : s.callers thread = .unsubscribing observer index scan) :
    let next := s.unsubscribeStep thread observer index scan
    next.CallerReads (next.callers thread) ∧ next.manager.observers.Nodup := by
  have hages := State.ages_unsubscribeStep hphase
  have hreads := h.callers thread
  rw [hphase] at hreads
  obtain ⟨hunmet, hscan⟩ := hreads
  have hkept : (s.manager.observers.eraseIdx index).take index = s.manager.observers.take index :=
    List.take_eraseIdx_eq_take_of_le _ _ _ (Nat.le_refl index)
  have herased : (s.manager.observers.eraseIdx index).Nodup :=
    h.distinct.sublist (List.eraseIdx_sublist _ _)
  have herasedUnmet : ∀ entry ∈ (s.manager.observers.eraseIdx index).take index,
      entry.observer ≠ observer := by
    rw [hkept]
    exact hunmet
  have hmove := s.unsubscribeMove thread observer index scan
  generalize s.unsubscribeStep thread observer index scan = next at hages hmove ⊢
  cases hmove with
  | lockObserver =>
    simp only [State.setCaller, Function.update_self]
    refine ⟨⟨hunmet, fun d o hread => ?_⟩, h.distinct⟩
    cases hread
    exact State.readsObserver_lock hages rfl index
  | finish =>
    simp only [State.finishCall, State.setCaller, Function.update_self]
    exact ⟨trivial, h.distinct⟩
  | erase | eraseExpired =>
    simp only [State.setCaller, State.eraseEntry, Function.update_self]
    exact ⟨⟨herasedUnmet, by simp⟩, herased⟩
  | pass _ _ hother =>
    simp only [State.setCaller, Function.update_self]
    refine ⟨⟨?_, by simp⟩, h.distinct⟩
    intro entry hentry
    change entry ∈ s.manager.observers.take (index + 1) at hentry
    rw [List.take_add_one, List.mem_append] at hentry
    obtain hearlier | hnow := hentry
    · exact hunmet entry hearlier
    · have hcurrent := hscan _ _ rfl
      rw [Option.mem_toList] at hnow
      rw [State.ReadsObserver, hnow, Option.map_some, Option.some.injEq] at hcurrent
      rw [hcurrent]
      exact hother
  | next =>
    simp only [State.setCaller, Function.update_self]
    exact ⟨⟨hunmet, by simp⟩, h.distinct⟩

/-- A loop of one thread leaves nobody else inside. -/
theorem State.Scanned.of_thread {s next : State Dispatcher Observer Tid} (hlocked : s.Locked)
    {thread : Tid} (hinside : (s.callers thread).scans = true)
    (hthread : next.observerThread = s.observerThread) (hmove : s.LoopMove next thread)
    (hreads : next.CallerReads (next.callers thread))
    (hdistinct : next.manager.observers.Nodup) : next.Scanned := by
  obtain ⟨phase, hcallers⟩ := hmove.callers
  refine ⟨?_, fun other => ?_, hdistinct⟩
  · refine State.threadReads_of_not_scans ?_ _
    rw [hthread]
    exact hlocked.thread_outside hinside
  · by_cases hother : other = thread
    · rw [hother]
      exact hreads
    · refine State.callerReads_of_not_scans ?_ _
      rw [hcallers, Function.update_of_ne hother]
      exact hlocked.others_outside hinside hother

omit [DecidableEq Tid] in
/-- A step that leaves `observers_` alone. -/
theorem State.Scanned.frame {s next : State Dispatcher Observer Tid} (h : s.Scanned)
    (hages : s.Ages next) (hobservers : next.manager.observers = s.manager.observers)
    (hthread : next.observerThread = s.observerThread ∨ next.ThreadReads next.observerThread)
    (hcallers : ∀ thread, next.callers thread = s.callers thread ∨
      next.CallerReads (next.callers thread)) : next.Scanned := by
  refine ⟨?_, fun thread => ?_, hobservers ▸ h.distinct⟩
  · obtain hsame | hreads := hthread
    · rw [hsame]
      exact h.observerThread.frame hages hobservers
    · exact hreads
  · obtain hsame | hreads := hcallers thread
    · rw [hsame]
      exact (h.callers thread).frame hages hobservers
    · exact hreads

/-- A call goes on to another phase, and the other calls stay where they are. -/
theorem State.callerReads_of_update {s next : State Dispatcher Observer Tid} {thread : Tid}
    {phase : CallerPhase Dispatcher Observer}
    (hcallers : next.callers = Function.update s.callers thread phase)
    (hreads : next.CallerReads phase) (other : Tid) :
    next.callers other = s.callers other ∨ next.CallerReads (next.callers other) := by
  by_cases hother : other = thread
  · rw [hother, hcallers, Function.update_self]
    exact .inr hreads
  · rw [hcallers, Function.update_of_ne hother]
    exact .inl rfl

/-- A step of a call keeps what the loops have read. -/
theorem State.Scanned.callerStep {s next : State Dispatcher Observer Tid} (h : s.Scanned)
    (hlocked : s.Locked) {thread : Tid} (hstep : s.callerStep thread = some next) :
    next.Scanned := by
  have hages := State.ages_callerStep hstep
  have hframe := (State.callFrame_callerStep hstep).observerThread
  obtain ⟨_, _, _, hnext⟩ | hloop | hloop := State.callerStep_cases hstep
  · obtain rfl | ⟨phase, rfl, hphase⟩ := hnext
    · exact h.frame hages rfl (.inl rfl) (State.callerReads_of_update rfl trivial)
    · refine h.frame hages rfl (.inl rfl) (State.callerReads_of_update rfl ?_)
      obtain ⟨_, _, _, rfl⟩ | ⟨_, _, rfl⟩ := hphase
      · exact ⟨by simp, trivial⟩
      · exact ⟨by simp, by simp⟩
  · obtain ⟨dispatcher, observer, index, scan, hphase, rfl⟩ := hloop
    obtain ⟨hreads, hdistinct⟩ := h.subscribeStep hphase
    refine State.Scanned.of_thread hlocked (by rw [hphase]; rfl) hframe ?_ hreads hdistinct
    exact s.loopMove_subscribeStep thread dispatcher observer index scan
  · obtain ⟨observer, index, scan, hphase, rfl⟩ := hloop
    obtain ⟨hreads, hdistinct⟩ := h.unsubscribeStep hphase
    refine State.Scanned.of_thread hlocked (by rw [hphase]; rfl) hframe ?_ hreads hdistinct
    exact s.loopMove_unsubscribeStep thread observer index scan

/-- Each step keeps what the loops have read. -/
theorem State.Scanned.step {s next : State Dispatcher Observer Tid} (h : s.Scanned)
    (hlocked : s.Locked) {action : Action Dispatcher Observer Tid}
    (hstep : s.step action = some next) : next.Scanned := by
  have hages := State.ages_step hstep
  cases State.turn_of_step hstep with
  | elsewhere hframe _ _ hthread =>
    refine h.frame hages hframe.observers ?_ fun thread => .inl (congrFun hframe.callers thread)
    refine hthread.imp_right fun hresting => ?_
    exact State.threadReads_of_not_scans (ObserverPhase.scans_of_resting hresting.2) next
  | owner hframe hthread =>
    exact h.frame hages hframe.observers (.inl hthread)
      fun thread => .inl (congrFun hframe.callers thread)
  | call thread phase _ hscans _ _ hnext =>
    subst hnext
    have hreads := State.callerReads_of_not_scans hscans (s.setCaller thread phase)
    exact h.frame hages rfl (.inl rfl) (State.callerReads_of_update rfl hreads)
  | callerStep thread hcaller => exact h.callerStep hlocked hcaller
  | lock notification hphase hfree hnext =>
    subst hnext
    exact h.frame hages rfl (.inr ⟨by simp, by simp [Scan.atEntry], trivial⟩) fun _ => .inl rfl
  | scan notification healthyObservers index scan hphase hnext =>
    subst hnext
    obtain ⟨hreads, hdistinct⟩ := h.snapshotStep hphase
    refine ⟨hreads, fun thread => ?_, hdistinct⟩
    obtain ⟨hcallers, _⟩ := s.snapshotStep_scans notification healthyObservers index scan
    rw [hcallers]
    exact State.callerReads_of_not_scans (hlocked.callers_outside (by rw [hphase]; rfl)) _
  | dispatch _ _ _ _ _ _ hnext | resume _ _ _ _ hnext | finish _ _ _ _ _ hnext =>
    subst hnext
    exact h.frame hages rfl (.inr trivial) fun _ => .inl rfl

/-- What the loops have read is true in every reachable state. -/
theorem State.scanned_of_reachable {s : State Dispatcher Observer Tid}
    (hreach : (rideMachine Dispatcher Observer Tid).Reachable s) : s.Scanned := by
  refine transition.Machine.ReachableBy.invariant (I := State.Scanned) ?_ ?_ hreach
  · rintro s ⟨stop, dispatcherOwned, observerOwned, rfl⟩
    exact ⟨trivial, fun _ => trivial, List.nodup_nil⟩
  · intro s action next hs hscanned _ hstep
    exact hscanned.step (State.locked_of_reachable hs.reachable) hstep

end spdlogger.ride_state_manager
